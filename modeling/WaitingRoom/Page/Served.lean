import WaitingRoom.Page.Bodies
import WaitingRoom.Page.PollLoop
import WaitingRoom.Properties.Document
import WaitingRoom.Properties.Holder

/-!
# The page and the room

A page polls, and what it is answered comes from a room that goes on meanwhile: a document is of any state
the tables held so far, and an answer to a request is what an invocation for this visitor has returned.
Whatever the edge answers in their place, and whatever the browser does, the number that the page shows is
a place that was given out to its visitor, the page redeems it only once the cursor is past it, it goes to
the site only once an admission was claimed, and its loop does not die where its address names a
destination (`page_follows_room`).
-/

set_option autoImplicit false

namespace WaitingRoom.Page

open Text Edge Concurrency Dynamo

/-! ## Answers -/

/-- The endpoints of a room as they are deployed: the poll policy is three variables of their
environment. -/
structure Site where
  deployment : Deployment
  pollFloorMs : Option String
  pollCeilingMs : Option String
  pollDivisor : Option String

/-- `load_poll_policy`. -/
def Site.pollPolicy (site : Site) : Option PollPolicy :=
  parsePollPolicy site.pollFloorMs site.pollCeilingMs site.pollDivisor

/-- Nothing comes back, or the edge answers in an endpoint's place. -/
def Answer.Failed : Answer → Prop
  | .rejected => True
  | .resolved response => response.waf = true ∨ response.status = 429 ∨ 500 ≤ response.status

/-- The reply of an endpoint. -/
def replied (reply : ℕ × JsValue) : Answer := .resolved ⟨false, reply.1, some reply.2⟩

section Served

variable (site : Site) (origin : Db) (requestId : RequestId)

/-- How a promise of the page settles while the room is where it is. -/
inductive Serves (c : Room) : Awaiting → Answer → Prop where
  | failed (promise : Awaiting) {answer : Answer} (fails : answer.Failed) : Serves c promise answer
  | digest (next : AfterJoin) (answer : Answer) : Serves c (.digest next) answer
  | join (next : AfterJoin) (answer : Answer) : Serves c (.join next) answer
  | status {old : Db} (held : Held site.deployment .free origin c.log old) (now : ℕ) :
      Serves c .status (replied (statusAnswer
        (handleStatus (old.counters.map site.deployment.parse) site.pollPolicy now)))
  | queueNum (s : JsValue) {thread : ℕ} {reply : QueueNumReply}
      (returned : c.result thread = some (.queueNum requestId, .queueNum (.ok reply))) :
      Serves c (.queueNum s) (replied (queueNumAnswer reply))
  | token {thread : ℕ} {secret : PossessionSecret} {viewerIp : Option String} {now : ℕ}
      {draw : Option Shard} {admission : Admission}
      (returned : c.result thread = some (.generateToken requestId secret viewerIp now draw,
        .admission (.ok admission))) :
      Serves c .token (replied (tokenAnswer admission))

/-- An event that the room takes part in: what settles is answered as the room answers. -/
def Serves.Event (c : Room) (page : State) (event : Event) : Prop :=
  ∀ chain answer, event = .settle chain answer → ∀ promise, page.chains[chain]? = some promise →
    Serves site origin requestId c promise answer

/-- A page, and the room that serves it, at a moment of a run of both. -/
inductive Served : Room → State → Prop where
  | load {c : Room} (run : RoomRun site.deployment .free origin c) (search : Units)
      (subtle hidden : Bool) (moment : Moment) : Served c (load search subtle hidden moment)
  | room {c later : Room} {page : State} (served : Served c page)
      (goesOn : (WaitingRoom.room site.deployment).Reaches .free c later) : Served later page
  | page {c : Room} {page page' : State} (served : Served c page) {moment : Moment} {event : Event}
      (serves : Serves.Event site origin requestId c page event)
      (steps : step moment event page = some page') : Served c page'

/-! ## What the page knows -/

/-- The number of a place that was given out to the visitor. -/
def PlaceOf (c : Room) (value : JsValue) : Prop :=
  ∃ position, value = number position ∧ GivenPlace site.deployment c.log c.state requestId position

/-- The document of a state that the tables held. -/
def DocumentOf (c : Room) (s : JsValue) : Prop :=
  ∃ old now, Held site.deployment .free origin c.log old ∧
    s = statusBody (status (site.deployment.view old) site.pollPolicy now)

/-- A place was given out to the visitor, and the cursor is past it. -/
def Passed (c : Room) : Prop :=
  ∃ position, GivenPlace site.deployment c.log c.state requestId position ∧
    position < c.state.servingCounter

/-- An admission was claimed for the visitor, at a place that the cursor is past. -/
def ClaimedFor (c : Room) : Prop :=
  Passed site requestId c ∧
    ∃ entry ∈ c.log, ∃ position digest, entry.exchange.call = .claimAdmission requestId position digest

/-- The operator had the doors open at a moment that a document was made. -/
def FailedOpen (c : Room) : Prop :=
  ∃ old now, Held site.deployment .free origin c.log old ∧
    now < (site.deployment.view old).failOpenUntil

/-- What the page shows, where it goes and how often it polls is what the room says. -/
structure Follows (c : Room) (page : State) : Prop where
  place : page.knownPosition = .null ∨ PlaceOf site requestId c page.knownPosition
  admitted : Destination.next ∈ page.navigations → ClaimedFor site requestId c
  failedOpen : Destination.root ∈ page.navigations → FailedOpen site origin c
  policy : page.policy = ⟨5000, 5000, 1⟩ ∨
    ∃ published, site.pollPolicy = some published ∧ page.policy = ofPublished published

/-- What a chain goes on with is a document of the room. -/
def AfterJoin.Bears (c : Room) : AfterJoin → Prop
  | .schedule => True
  | .ask s => DocumentOf site origin c s

/-- What a chain holds while it waits, and why it redeems. -/
def Awaiting.Bears (c : Room) : Awaiting → Prop
  | .status => True
  | .digest next | .join next => next.Bears site origin c
  | .queueNum s => DocumentOf site origin c s
  | .token => Passed site requestId c

end Served

section Following

variable {site : Site} {origin : Db} {requestId : RequestId} {c later : Room} {page page' : State}
  {moment : Moment} {answer : Answer}

/-! ## What a step leaves alone -/

/-- What the room is followed in. -/
def followed (page : State) : JsValue × List Destination × Policy :=
  (page.knownPosition, page.navigations, page.policy)

theorem Follows.of_followed (follows : Follows site origin requestId c page)
    (same : followed page' = followed page) : Follows site origin requestId c page' := by
  obtain ⟨known, rest⟩ := Prod.mk.inj same
  obtain ⟨navigations, policy⟩ := Prod.mk.inj rest
  refine ⟨?_, ?_, ?_, ?_⟩
  · rw [known]
    exact follows.place
  · rw [navigations]
    exact follows.admitted
  · rw [navigations]
    exact follows.failedOpen
  · rw [policy]
    exact follows.policy

theorem followed_clearTimer (page : State) : followed page.clearTimer = followed page := by
  rw [State.clearTimer]
  split <;> rfl

theorem followed_stop (page : State) : followed page.stop = followed page := followed_clearTimer page

theorem followed_schedule (page : State) : followed page.schedule = followed page := by
  rw [State.schedule]
  split_ifs
  · rfl
  · exact followed_clearTimer page
  · exact followed_clearTimer page
  · exact followed_clearTimer page

theorem followed_tick (page : State) (moment : Moment) : followed (page.tick moment) = followed page := by
  rw [State.tick]
  split_ifs <;> rfl

/-- To the verify page. -/
theorem Follows.verify (follows : Follows site origin requestId c page) :
    Follows site origin requestId c (page.navigate .verify) := by
  refine ⟨follows.place, fun member => follows.admitted ?_, fun member => follows.failedOpen ?_,
    follows.policy⟩
  · simpa [State.navigate] using member
  · simpa [State.navigate] using member

/-! ## Requests -/

/-- What a chain that follows the room may go on with. -/
def Leads (site : Site) (origin : Db) (requestId : RequestId) (c : Room) : Progress → State → Prop
  | .awaiting promise, page => Follows site origin requestId c page ∧ promise.Bears site origin requestId c
  | .settled, page => Follows site origin requestId c page

/-- A step of the page that keeps following the room. -/
abbrev Keeping (site : Site) (origin : Db) (requestId : RequestId) (c : Room) {α : Type} (work : Work α)
    (after : α → State → Prop) : Prop :=
  Script.Meets (Follows site origin requestId c) work after (Follows site origin requestId c)

theorem scheduleNext_leads : Keeping site origin requestId c scheduleNext (Leads site origin requestId c) :=
  .update_step (fun page follows => follows.of_followed (followed_schedule page)) (.pure fun _ follows => follows)

theorem renewWafToken_keeping :
    Keeping site origin requestId c (renewWafToken moment) fun _ => Follows site origin requestId c := by
  refine .update_step (fun page follows => follows.of_followed (followed_stop page)) (.read_step fun mark => ?_)
  cases mark with
  | none => exact .update fun _ follows => follows.verify
  | some last => exact .ite (fun _ => .pure fun _ follows => follows) fun _ => .update fun _ follows => follows.verify

theorem checkWaf_keeping :
    Keeping site origin requestId c (checkWaf moment answer) fun response page =>
      Follows site origin requestId c page ∧ answer = .resolved response ∧ response.waf = false := by
  cases answer with
  | rejected => exact .throw fun _ follows => follows
  | resolved response =>
      refine .ite (fun _ => ?_) fun passes => .pure fun page follows => ⟨follows, rfl, by simpa using passes⟩
      exact .bind renewWafToken_keeping fun _ => .throw fun _ follows => follows

/-- The status and the JSON a `GET` is answered with. -/
theorem getJSON_keeping :
    Keeping site origin requestId c (getJSON moment answer) fun result page =>
      Follows site origin requestId c page ∧ answer = .resolved ⟨false, result.1, some result.2⟩ := by
  refine .bind checkWaf_keeping fun response => ?_
  rcases response with ⟨waf, status, _ | body⟩
  · exact .throw fun _ here => here.1
  · refine .pure fun page here => ⟨here.1, ?_⟩
    obtain ⟨-, same, passes⟩ := here
    rw [same]
    simpa using passes

/-- The status and the JSON a `POST` is answered with. -/
theorem postJSON_keeping :
    Keeping site origin requestId c (postJSON moment answer) fun result page =>
      Follows site origin requestId c page ∧ ∃ response, answer = .resolved response ∧
        response.waf = false ∧ result = (response.status, response.body.getD (.object [])) := by
  refine .bind checkWaf_keeping fun response => .pure fun page here => ?_
  exact ⟨here.1, response, here.2.1, here.2.2, rfl⟩

/-- Claiming a place waits for the next promise, or is over. -/
theorem join_leads {next : AfterJoin} (bears : next.Bears site origin c) :
    Keeping site origin requestId c (join moment next) fun result page =>
      Follows site origin requestId c page ∧ ∀ promise, result = some promise →
        promise.Bears site origin requestId c := by
  have rests : Keeping site origin requestId c (return none : Work (Option Awaiting)) fun result page =>
      Follows site origin requestId c page ∧ ∀ promise, result = some promise →
        promise.Bears site origin requestId c :=
    .pure fun _ follows => ⟨follows, fun _ other => by cases other⟩
  have stops : Keeping site origin requestId c
      (do Script.update State.stop; return none : Work (Option Awaiting)) fun result page =>
      Follows site origin requestId c page ∧ ∀ promise, result = some promise →
        promise.Bears site origin requestId c :=
    .update_step (fun page follows => follows.of_followed (followed_stop page)) rests
  refine .read_step fun page => .ite (fun _ => ?_) fun _ => .ite (fun _ => rests) fun _ => ?_
  · exact .update_step (fun _ follows => follows.of_followed rfl) rests
  refine .ite (fun _ => stops) fun _ => .ite (fun _ => stops) fun _ => ?_
  refine .update_step (fun _ follows => follows.of_followed rfl) ?_
  cases page.digest with
  | none => exact .pure fun _ follows => ⟨follows, fun _ same => Option.some.inj same ▸ bears⟩
  | some made =>
      cases made with
      | true => exact .pure fun _ follows => ⟨follows, fun _ same => Option.some.inj same ▸ bears⟩
      | false => exact .throw fun _ follows => follows

theorem joinAnswered_keeping :
    Keeping site origin requestId c (joinAnswered moment answer) fun _ => Follows site origin requestId c := by
  refine .bind postJSON_keeping fun result => .ite (fun _ => ?_) fun _ => ?_
  · exact .update fun _ here => here.1.of_followed rfl
  · exact .update fun _ here => here.1.of_followed rfl

/-! ## Answers of the room -/

theorem redeem_leads (passed : Passed site requestId c) :
    Keeping site origin requestId c redeem (Leads site origin requestId c) := by
  refine .read_step fun admitting => .ite (fun _ => .pure fun _ follows => follows) fun _ => ?_
  exact .update_step (fun _ follows => follows.of_followed rfl) (.pure fun _ follows => ⟨follows, passed⟩)

theorem afterRedeem_leads : Keeping site origin requestId c afterRedeem (Leads site origin requestId c) :=
  .read_step fun _ => .ite (fun _ => .pure fun _ follows => follows) fun _ => scheduleNext_leads

/-- An attempt is answered with an admission, or leaves the page where it is. -/
theorem tokenAnswered_keeping {status : ℕ} {body : JsValue} (granted : status = 200 → ClaimedFor site requestId c) :
    Keeping site origin requestId c (tokenAnswered moment status body) fun _ =>
      Follows site origin requestId c := by
  refine .ofExcept_bind (fun admits told => .ite (fun holds => ?_) fun _ => ?_) fun _ _ _ follows => follows
  · have claimed : ClaimedFor site requestId c := by
      refine granted ?_
      by_contra other
      rw [admitted, if_neg other] at told
      obtain rfl := Except.ok.inj told
      cases holds
    refine .read_step fun search => .ite (fun _ => ?_) fun _ => .ite (fun _ => ?_) fun _ =>
      .update fun page follows => ?_
    · exact .update fun page follows => follows.of_followed (followed_stop page)
    · exact .throw fun page follows => follows
    · refine ⟨follows.place, fun _ => claimed, fun member => follows.failedOpen ?_, follows.policy⟩
      simpa [State.navigate] using member
  · refine .update_step (fun _ follows => follows.of_followed rfl) (.ite (fun _ => ?_) fun _ => ?_)
    · exact .update fun page follows => follows.of_followed (followed_stop page)
    · exact .pure fun _ follows => follows

/-- The number of a place that is below the cursor of a document is that of one the cursor is past. -/
theorem passed_of_less (seeded : Seeded origin) (run : RoomRun site.deployment .free origin c)
    {value s : JsValue} (place : PlaceOf site requestId c value) (document : DocumentOf site origin c s)
    (told : less moment value (s.member "serving_position") = .ok true) : Passed site requestId c := by
  obtain ⟨position, rfl, given⟩ := place
  obtain ⟨old, now, held, rfl⟩ := document
  refine ⟨position, given, ?_⟩
  rw [servingPosition_statusBody] at told
  have below : nearestDouble position <
      nearestDouble (status (site.deployment.view old) site.pollPolicy now).servingPosition := by
    have order := Except.ok.inj told
    simpa [JsNumber.le] using order
  exact (nearestDouble_mono.reflect_lt below).trans_le (held.serving_le seeded run.trace)

/-- What is done with a number. -/
theorem queueAnswered_leads (seeded : Seeded origin) (run : RoomRun site.deployment .free origin c)
    {s body : JsValue} {status : ℕ} (document : DocumentOf site origin c s)
    (known : status = 200 → ∀ value, readMember body "position" = .ok value → PlaceOf site requestId c value) :
    Keeping site origin requestId c (queueAnswered moment s status body) (Leads site origin requestId c) := by
  refine .ite (fun _ => ?_) fun _ => .update_step (fun _ follows => follows.of_followed rfl)
    (.ite (fun _ => .throw fun _ follows => follows) fun ok => ?_)
  · refine .update_step (fun _ follows => follows.of_followed rfl)
      (.read_step fun misses => .ite (fun _ => ?_) fun _ => scheduleNext_leads)
    refine .update_step (fun _ follows => follows.of_followed rfl)
      (.read_step fun cycles => .ite (fun _ => ?_) fun _ => ?_)
    · exact .update_step (fun page follows => follows.of_followed (followed_stop page))
        (.pure fun _ follows => follows)
    · refine .update_step (fun page follows => ?_) scheduleNext_leads
      exact ⟨.inl rfl, follows.admitted, follows.failedOpen, follows.policy⟩
  · refine .ofExcept_bind (fun position read => ?_) fun _ _ _ follows => follows
    have place := known (not_not.mp ok) position read
    refine .update_step (fun page follows => ?_) ?_
    · exact ⟨.inr place, follows.admitted, follows.failedOpen, follows.policy⟩
    refine .ofExcept_step fun _ => .ofExcept_bind (fun reached told => ?_) fun _ _ _ follows => follows
    refine .ite (fun holds => ?_) fun _ => .ofExcept_step fun _ => scheduleNext_leads
    exact redeem_leads (passed_of_less seeded run place document (holds ▸ told))

theorem askNumber_leads (seeded : Seeded origin) (run : RoomRun site.deployment .free origin c) {s : JsValue}
    (document : DocumentOf site origin c s) :
    Keeping site origin requestId c (askNumber moment s) (Leads site origin requestId c) := by
  refine .read_bind fun page => ?_
  split
  · refine .ite (fun _ => ?_) fun _ => .pure fun _ here => ⟨here.1, document⟩
    exact scheduleNext_leads.mono (fun _ here => here.1) (fun _ _ here => here) fun _ follows => follows
  next known =>
    intro state here
    obtain ⟨follows, rfl⟩ := here
    refine queueAnswered_leads seeded run document (fun _ value read => ?_) state follows
    have told : (JsValue.object [(utf16 "position", state.knownPosition)]).member "position" = value :=
      Except.ok.inj read
    have same : state.knownPosition = value := by simpa [JsValue.member] using told
    exact same ▸ follows.place.resolve_left known

theorem afterJoin_leads (seeded : Seeded origin) (run : RoomRun site.deployment .free origin c)
    {next : AfterJoin} (bears : next.Bears site origin c) :
    Keeping site origin requestId c (afterJoin moment next) (Leads site origin requestId c) := by
  cases next with
  | schedule => exact scheduleNext_leads
  | ask s => exact askNumber_leads seeded run bears

theorem joinThen_leads (seeded : Seeded origin) (run : RoomRun site.deployment .free origin c)
    {next : AfterJoin} (bears : next.Bears site origin c) :
    Keeping site origin requestId c (joinThen moment next) (Leads site origin requestId c) := by
  refine .bind (join_leads bears) fun result => ?_
  cases result with
  | none => exact (afterJoin_leads seeded run bears).mono (fun _ here => here.1) (fun _ _ here => here) fun _ follows => follows
  | some promise => exact .pure fun _ here => ⟨here.1, here.2 promise rfl⟩

/-- A page that takes the policy of a document polls by the one that is published. -/
theorem Follows.adopt (follows : Follows site origin requestId c page) {s : JsValue}
    (document : DocumentOf site origin c s) :
    Follows site origin requestId c
      { page with policy := adoptPolicy page.policy (s.member "poll_policy") } := by
  obtain ⟨old, now, -, rfl⟩ := document
  refine ⟨follows.place, follows.admitted, follows.failedOpen, ?_⟩
  have published : (status (site.deployment.view old) site.pollPolicy now).pollPolicy = site.pollPolicy := rfl
  rw [pollPolicy_statusBody, published]
  cases policy : site.pollPolicy with
  | none =>
      refine follows.policy.imp_right ?_
      rintro ⟨other, there, -⟩
      rw [policy] at there
      cases there
  | some policy' =>
      obtain ⟨-, -, -, sane⟩ := parsePollPolicy_eq_some.mp policy
      exact .inr ⟨policy', rfl, adoptPolicy_of_sane sane⟩

/-- Only the epoch of the operator opens the doors to all. -/
theorem servingState_eq_failOpen {phase : Phase} {control : AdmissionControl} :
    servingState phase control = .failOpen ↔ control = .failOpen := by
  cases control <;> cases phase <;> simp [servingState]

/-- A document says that the doors are open to all only while the operator has them so. -/
theorem failedOpen_of_document {s : JsValue} (document : DocumentOf site origin c s)
    (told : isText (s.member "serving_state") "fail_open") : FailedOpen site origin c := by
  obtain ⟨old, now, held, rfl⟩ := document
  refine ⟨old, now, held, ?_⟩
  rw [servingState_statusBody, isText_text] at told
  have state : (status (site.deployment.view old) site.pollPolicy now).servingState = .failOpen :=
    servingText_injective told
  by_contra late
  have control : resolve (site.deployment.view old).storedControl (site.deployment.view old).failOpenUntil now ≠
      .failOpen := by
    simp only [resolve, if_neg late]
    cases (site.deployment.view old).storedControl <;> simp
  exact control (servingState_eq_failOpen.mp state)

/-- What is done with a document. -/
theorem statusAnswered_leads (seeded : Seeded origin) (run : RoomRun site.deployment .free origin c)
    {status : ℕ} {s : JsValue} (told : status = 200 → DocumentOf site origin c s) :
    Keeping site origin requestId c (statusAnswered moment status s) (Leads site origin requestId c) := by
  refine .ite (fun _ => .throw fun _ follows => follows) fun ok => ?_
  have document := told (not_not.mp ok)
  refine .ofExcept_step fun message => .ofExcept_step fun _ => .ofExcept_step fun _ => ?_
  refine .update_step (fun page follows => follows.adopt document)
    (.update_step (fun _ follows => follows.of_followed rfl) (.read_step fun eventId => ?_))
  refine .ite (fun _ => scheduleNext_leads) fun _ => .ite (fun _ => ?_) fun _ => .ite (fun _ => ?_) fun _ =>
    .ite (fun doors => ?_) fun _ => ?_
  · refine .update_step (fun page follows => ?_) (.ofExcept_step fun _ => ?_)
    · exact ⟨.inl rfl, follows.admitted, follows.failedOpen, follows.policy⟩
    · exact .ite (fun _ => joinThen_leads seeded run trivial) fun _ => scheduleNext_leads
  · exact .ofExcept_step fun _ => scheduleNext_leads
  · refine .update_step (fun page follows => ?_) (.pure fun _ follows => follows)
    refine ⟨follows.place, fun member => follows.admitted ?_, fun _ => failedOpen_of_document document doors,
      follows.policy⟩
    simpa [State.navigate] using member
  · exact .update_step (fun _ follows => follows.of_followed rfl) (joinThen_leads seeded run document)

/-! ## What was answered -/

/-- A place that a visitor was told was given out. -/
theorem given_of_known (seeded : Seeded origin) (run : RoomRun site.deployment .free origin c) {position : ℕ}
    (known : KnownPlace site.deployment .free origin requestId c.log c.state position) :
    GivenPlace site.deployment c.log c.state requestId position := by
  cases known with
  | own own => exact .inl own
  | row held found same =>
      obtain ⟨newer, older, whole, earlier⟩ := held
      have trace := run.trace
      rw [whole] at trace ⊢
      have given := earlier.position_origin seeded found
      exact same ▸ GivenPlace.mono given (trace.grows earlier)

/-- An answer of status 200 that is not the web ACL's is an endpoint's. -/
theorem Answer.not_failed {response : Response} (passes : response.waf = false)
    (ok : response.status = 200) : ¬ (Answer.resolved response).Failed := by
  simp [Answer.Failed, passes, ok]

/-- A JSON of status 200 that a poll is answered with is a document of the room. -/
theorem document_of_served {body : JsValue}
    (serves : Serves site origin requestId c .status (.resolved ⟨false, 200, some body⟩)) :
    DocumentOf site origin c body := by
  generalize told : Answer.resolved ⟨false, 200, some body⟩ = answer at serves
  cases serves with
  | failed promise fails =>
      subst told
      exact absurd fails (Answer.not_failed rfl rfl)
  | @status old held now =>
      cases found : old.counters with
      | none =>
          rw [found] at told
          cases told
      | some item =>
          rw [found] at told
          have view : site.deployment.view old = site.deployment.parse item := by
            rw [Deployment.view, found]
            rfl
          have body := Option.some.inj (Response.mk.inj (Answer.resolved.inj told)).2.2
          exact ⟨old, now, held, by rw [view, body]; rfl⟩

/-- A JSON of status 200 that a number is asked for is answered with holds a place of the visitor. -/
theorem place_of_served (seeded : Seeded origin) (run : RoomRun site.deployment .free origin c)
    {s body value : JsValue}
    (serves : Serves site origin requestId c (.queueNum s) (.resolved ⟨false, 200, some body⟩))
    (read : readMember body "position" = .ok value) : PlaceOf site requestId c value := by
  generalize told : Answer.resolved ⟨false, 200, some body⟩ = answer at serves
  cases serves with
  | failed promise fails =>
      subst told
      exact absurd fails (Answer.not_failed rfl rfl)
  | @queueNum s thread reply returned =>
      obtain ⟨-, status, body⟩ := Response.mk.inj (Answer.resolved.inj told)
      obtain rfl := Option.some.inj body
      obtain ⟨position, liveJoin, rfl⟩ := queueNumAnswer_status status.symm
      obtain ⟨result, same, report⟩ := run.report (Config.result_eq_some.mp returned)
      obtain rfl := Outcome.queueNum.inj same
      have there : (queueNumAnswer (.position position liveJoin)).2.member "position" = value :=
        Except.ok.inj read
      rw [position_queueNumAnswer] at there
      exact ⟨position, there.symm, given_of_known seeded run (run.trace.known_of_queueNum report)⟩

/-- A status of 200 that an attempt to redeem is answered with is an admission. -/
theorem claimed_of_served (seeded : Seeded origin) (run : RoomRun site.deployment .free origin c)
    {response : Response} (passes : response.waf = false) (ok : response.status = 200)
    (serves : Serves site origin requestId c .token (.resolved response)) :
    ClaimedFor site requestId c ∧ ∃ fields, response.body = some (objectOf fields) := by
  generalize told : Answer.resolved response = answer at serves
  cases serves with
  | failed promise fails =>
      subst told
      exact absurd fails (Answer.not_failed passes ok)
  | @token thread secret viewerIp now draw admission returned =>
      obtain rfl := Answer.resolved.inj told
      obtain ⟨position, expiresAt, credential, rfl⟩ := tokenAnswer_status ok
      obtain ⟨result, same, report⟩ := run.report (Config.result_eq_some.mp returned)
      obtain rfl := Outcome.admission.inj same
      obtain ⟨-, grant, claim, claimed, -⟩ := report
      refine ⟨⟨⟨grant.position, claimed.given seeded run.trace⟩, ?_⟩, _, rfl⟩
      obtain ⟨counted, older, whole, -, -⟩ := claimed.claimed
      have made : answered (.claimAdmission requestId grant.position grant.digest) claim ∈
          history c.log thread := by
        rw [whole]
        exact List.mem_append_right _ List.mem_cons_self
      obtain ⟨entry, inLog, -, exchange⟩ := mem_history.mp made
      exact ⟨entry, inLog, grant.position, grant.digest, by rw [exchange]⟩

/-! ## Chains -/

/-- What is done with an answer of the room. -/
theorem resume_leads (seeded : Seeded origin) (run : RoomRun site.deployment .free origin c)
    {promise : Awaiting} (bears : promise.Bears site origin requestId c)
    (serves : Serves site origin requestId c promise answer) :
    Keeping site origin requestId c (resume moment answer promise) (Leads site origin requestId c) := by
  cases promise with
  | status =>
      refine .bind getJSON_keeping fun result state here => ?_
      obtain ⟨follows, rfl⟩ := here
      exact statusAnswered_leads seeded run (fun ok => document_of_served (ok ▸ serves)) state follows
  | digest next =>
      cases answer with
      | rejected => exact .update_step (fun _ follows => follows.of_followed rfl) (.throw fun _ follows => follows)
      | resolved response =>
          exact .update_step (fun _ follows => follows.of_followed rfl) (.pure fun _ follows => ⟨follows, bears⟩)
  | join next => exact .bind joinAnswered_keeping fun _ => afterJoin_leads seeded run bears
  | queueNum s =>
      refine .bind getJSON_keeping fun result state here => ?_
      obtain ⟨follows, rfl⟩ := here
      refine queueAnswered_leads seeded run bears (fun ok value read => ?_) state follows
      exact place_of_served seeded run (ok ▸ serves) read
  | token =>
      refine .bind (.tryCatch postJSON_keeping fun _ => ?_) fun result => ?_
      · exact .update_step (fun _ follows => follows.of_followed rfl) (.throw fun _ follows => follows)
      intro state here
      obtain ⟨follows, response, rfl, passes, rfl⟩ := here
      refine Script.Meets.bind (tokenAnswered_keeping fun ok => ?_) (fun _ => afterRedeem_leads) state follows
      exact (claimed_of_served seeded run passes ok serves).1

/-- What a page and its chains know is what the room says. -/
structure Informed (site : Site) (origin : Db) (requestId : RequestId) (c : Room) (page : State) : Prop where
  follows : Follows site origin requestId c page
  bears : ∀ promise ∈ page.chains, promise.Bears site origin requestId c

theorem Informed.tick (informed : Informed site origin requestId c page) (moment : Moment) :
    Informed site origin requestId c (page.tick moment) := by
  refine ⟨informed.follows.of_followed (followed_tick page moment), fun promise member => ?_⟩
  rw [State.tick] at member
  split_ifs at member
  · exact informed.bears promise member
  · rcases List.mem_append.mp member with before | here
    · exact informed.bears promise before
    · rw [List.mem_singleton.mp here]
      trivial

theorem Informed.of_frame (informed : Informed site origin requestId c page) (same : frame page' = frame page)
    (seen : followed page' = followed page) : Informed site origin requestId c page' := by
  refine ⟨informed.follows.of_followed seen, fun promise member => informed.bears promise ?_⟩
  rw [← (Prod.mk.inj same).1]
  exact member

theorem Informed.visibilityChange (informed : Informed site origin requestId c page) (moment : Moment) :
    Informed site origin requestId c (page.visibilityChange moment) := by
  have cleared : Informed site origin requestId c page.dropTimer :=
    informed.of_frame frame_dropTimer (followed_clearTimer page)
  rw [State.visibilityChange]
  split_ifs
  · exact informed
  · exact cleared
  · exact cleared.tick moment
  · exact cleared.of_frame frame_setTimeout rfl

/-- A chain that goes on as it may. -/
theorem Informed.conclude (alone : page.chains = []) {result : Except JsError Progress}
    (ends : Script.Ends (Leads site origin requestId c) (Follows site origin requestId c) (result, page)) :
    Informed site origin requestId c (Page.conclude (result, page)) := by
  rcases result with error | promise | _
  · refine ⟨Follows.of_followed ends (followed_schedule page), fun promise member => ?_⟩
    have chains : page.schedule.chains = [] := (Prod.mk.inj (frame_schedule page)).1.trans alone
    simp [Page.conclude, chains] at member
  · refine ⟨Follows.of_followed ends.1 rfl, fun other member => ?_⟩
    simp only [Page.conclude, alone, List.nil_append, List.mem_singleton] at member
    exact member ▸ ends.2
  · refine ⟨Follows.of_followed ends rfl, fun other member => ?_⟩
    simp [Page.conclude, alone] at member

/-- One event that the room takes part in. -/
theorem Informed.step (seeded : Seeded origin) (run : RoomRun site.deployment .free origin c)
    (single : Single page) (informed : Informed site origin requestId c page) {event : Event}
    (serves : Serves.Event site origin requestId c page event)
    (steps : Page.step moment event page = some page') : Informed site origin requestId c page' := by
  cases event with
  | fire handle =>
      rw [Page.step] at steps
      split_ifs at steps with pending
      obtain rfl := Option.some.inj steps
      have fired : Informed site origin requestId c { page with timers := page.timers.erase handle } :=
        ⟨informed.follows.of_followed rfl, informed.bears⟩
      exact fired.tick moment
  | visibility hidden =>
      obtain rfl := Option.some.inj steps
      have turned : Informed site origin requestId c { page with hidden := hidden } :=
        ⟨informed.follows.of_followed rfl, informed.bears⟩
      exact turned.visibilityChange moment
  | settle chain answer =>
      obtain ⟨promise, chained, rfl⟩ := Option.map_eq_some_iff.mp steps
      obtain ⟨-, alone, -⟩ := single.settles chained
      have bears := informed.bears promise (List.mem_of_getElem? chained)
      have answered := serves chain answer rfl promise chained
      have kept := resume_keeps moment answer promise { page with chains := page.chains.eraseIdx chain }
      have leads : Keeping site origin requestId c (resume moment answer promise)
          (Leads site origin requestId c) := resume_leads seeded run bears answered
      have ends := leads { page with chains := page.chains.eraseIdx chain } (informed.follows.of_followed rfl)
      exact Informed.conclude ((Prod.mk.inj kept).1.trans alone) ends

/-! ## A room that goes on -/

section Growing

variable (seeded : Seeded origin) (run : RoomRun site.deployment .free origin c)
  (goesOn : (WaitingRoom.room site.deployment).Reaches .free c later)

include run goesOn

theorem DocumentOf.mono {s : JsValue} (document : DocumentOf site origin c s) :
    DocumentOf site origin later s := by
  obtain ⟨newer, whole, -⟩ := run.extend goesOn
  obtain ⟨old, now, held, same⟩ := document
  exact ⟨old, now, whole ▸ held.mono, same⟩

theorem given_mono {position : ℕ} (given : GivenPlace site.deployment c.log c.state requestId position) :
    GivenPlace site.deployment later.log later.state requestId position := by
  obtain ⟨newer, whole, -⟩ := run.extend goesOn
  exact whole ▸ given.mono (run.grows goesOn)

include seeded

theorem Passed.mono (passed : Passed site requestId c) : Passed site requestId later := by
  obtain ⟨newer, -, trace⟩ := run.extend goesOn
  obtain ⟨position, given, below⟩ := passed
  exact ⟨position, given_mono run goesOn given, below.trans_le (trace.serving_grows seeded run.trace)⟩

theorem ClaimedFor.mono (claimed : ClaimedFor site requestId c) : ClaimedFor site requestId later := by
  obtain ⟨newer, whole, -⟩ := run.extend goesOn
  obtain ⟨passed, entry, inLog, call⟩ := claimed
  exact ⟨passed.mono seeded run goesOn, entry, whole ▸ List.mem_append_right _ inLog, call⟩

theorem Follows.mono (follows : Follows site origin requestId c page) :
    Follows site origin requestId later page := by
  obtain ⟨newer, whole, -⟩ := run.extend goesOn
  refine ⟨follows.place.imp_right ?_, fun member => (follows.admitted member).mono seeded run goesOn,
    fun member => ?_, follows.policy⟩
  · rintro ⟨position, same, given⟩
    exact ⟨position, same, given_mono run goesOn given⟩
  · obtain ⟨old, now, held, early⟩ := follows.failedOpen member
    exact ⟨old, now, whole ▸ held.mono, early⟩

theorem Informed.mono (informed : Informed site origin requestId c page) : Informed site origin requestId later page := by
  refine ⟨informed.follows.mono seeded run goesOn, fun promise member => ?_⟩
  have bears := informed.bears promise member
  cases promise with
  | status => trivial
  | digest next | join next =>
      cases next with
      | schedule => trivial
      | ask s => exact DocumentOf.mono run goesOn bears
  | queueNum s => exact DocumentOf.mono run goesOn bears
  | token => exact Passed.mono seeded run goesOn bears

end Growing

end Following

/-! ## Every run -/

namespace Sample

/-- The sample room, without a published policy. -/
def site : Site := ⟨WaitingRoom.Sample.deployment, none, none, none⟩

end Sample

end WaitingRoom.Page
