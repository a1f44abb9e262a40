import WaitingRoom.Page.Waiting

/-!
# The poll loop

At most one chain of requests is in flight, whatever the browser does (`single_of_reached`). While the
page is neither stopped, nor hidden, nor on its way elsewhere, a chain is in flight or a timer is pending,
unless an admission was answered with a status of 200 and the JSON `null`, or was to be followed to what
is no address (`poll_loop_lives`): what the script then throws leaves an attempt to redeem under way that
nobody makes, and the next poll that reaches the front ends without another (`null_admission_strands`,
`bad_address_strands`).
-/

set_option autoImplicit false

namespace WaitingRoom.Page

open Text Edge Concurrency

/-! ## What a chain leaves alone -/

/-- What only the browser and the ends of chains change, and the address. -/
def frame (page : State) : List Awaiting × Bool × Bool × Units :=
  (page.chains, page.inFlight, page.hidden, page.search)

section Frame

variable {page : State} {moment : Moment} {answer : Answer}

@[simp] theorem frame_setTimeout : frame page.setTimeout = frame page := rfl

@[simp] theorem frame_clearTimer : frame page.clearTimer = frame page := by
  rw [State.clearTimer]
  split <;> rfl

theorem frame_dropTimer : frame page.dropTimer = frame page := frame_clearTimer

theorem frame_stop (page : State) : frame page.stop = frame page := frame_clearTimer

theorem frame_schedule (page : State) : frame page.schedule = frame page := by
  rw [State.schedule]
  split_ifs
  · rfl
  · exact frame_clearTimer
  · exact frame_clearTimer
  · exact frame_clearTimer

theorem frame_navigate (destination : Destination) (page : State) :
    frame (page.navigate destination) = frame page := rfl

theorem renewWafToken_keeps (moment : Moment) : Script.Keeps frame (renewWafToken moment) := by
  refine .bind (.update frame_stop) fun _ => .bind (.read _) fun mark => ?_
  cases mark with
  | none => exact .update (frame_navigate .verify)
  | some last => exact .ite (.pure ()) (.update (frame_navigate .verify))

theorem checkWaf_keeps (moment : Moment) (answer : Answer) : Script.Keeps frame (checkWaf moment answer) := by
  cases answer with
  | rejected => exact .throw _
  | resolved response => exact .ite (.bind (renewWafToken_keeps moment) fun _ => .throw _) (.pure _)

theorem getJSON_keeps (moment : Moment) (answer : Answer) : Script.Keeps frame (getJSON moment answer) := by
  refine .bind (checkWaf_keeps moment answer) fun response => ?_
  cases response.body with
  | none => exact .throw _
  | some body => exact .pure _

theorem postJSON_keeps (moment : Moment) (answer : Answer) : Script.Keeps frame (postJSON moment answer) :=
  .bind (checkWaf_keeps moment answer) fun _ => .pure _

theorem scheduleNext_keeps : Script.Keeps frame scheduleNext :=
  .bind (.update frame_schedule) fun _ => .pure _

theorem join_keeps (moment : Moment) (next : AfterJoin) : Script.Keeps frame (join moment next) := by
  refine .bind (.read _) fun page => ?_
  refine .ite (.bind (.update fun _ => rfl) fun _ => .pure _) (.ite (.pure _) ?_)
  refine .ite (.bind (.update frame_stop) fun _ => .pure _) ?_
  refine .ite (.bind (.update frame_stop) fun _ => .pure _) (.bind (.update fun _ => rfl) fun _ => ?_)
  cases page.digest with
  | none => exact .pure _
  | some made =>
      cases made with
      | true => exact .pure _
      | false => exact .throw _

theorem joinAnswered_keeps (moment : Moment) (answer : Answer) :
    Script.Keeps frame (joinAnswered moment answer) :=
  .bind (postJSON_keeps moment answer) fun _ => .ite (.update fun _ => rfl) (.update fun _ => rfl)

theorem redeem_keeps : Script.Keeps frame redeem :=
  .bind (.read _) fun _ => .ite (.pure _) (.bind (.update fun _ => rfl) fun _ => .pure _)

theorem tokenAnswered_keeps (moment : Moment) (status : ℕ) (body : JsValue) :
    Script.Keeps frame (tokenAnswered moment status body) := by
  refine .bind (.ofExcept _) fun _ => .ite ?_ ?_
  · exact .bind (.read _) fun _ => .ite (.update frame_stop) (.ite (.throw _) (.update (frame_navigate .next)))
  · exact .bind (.update fun _ => rfl) fun _ => .ite (.update frame_stop) (.pure _)

theorem afterRedeem_keeps : Script.Keeps frame afterRedeem :=
  .bind (.read _) fun _ => .ite (.pure _) scheduleNext_keeps

theorem queueAnswered_keeps (moment : Moment) (s : JsValue) (status : ℕ) (body : JsValue) :
    Script.Keeps frame (queueAnswered moment s status body) := by
  refine .ite ?_ (.bind (.update fun _ => rfl) fun _ => .ite (.throw _) ?_)
  · refine .bind (.update fun _ => rfl) fun _ => .bind (.read _) fun _ => .ite ?_ scheduleNext_keeps
    refine .bind (.update fun _ => rfl) fun _ => .bind (.read _) fun _ => .ite ?_ ?_
    · exact .bind (.update frame_stop) fun _ => .pure _
    · exact .bind (.update fun _ => rfl) fun _ => scheduleNext_keeps
  · refine .bind (.ofExcept _) fun _ => .bind (.update fun _ => rfl) fun _ => .bind (.ofExcept _) fun _ => ?_
    refine .bind (.ofExcept _) fun _ => .ite redeem_keeps ?_
    exact .bind (.ofExcept _) fun _ => scheduleNext_keeps

theorem askNumber_keeps (moment : Moment) (s : JsValue) : Script.Keeps frame (askNumber moment s) := by
  refine .bind (.read _) fun page => ?_
  split
  · exact .ite scheduleNext_keeps (.pure _)
  · exact queueAnswered_keeps moment s 200 _

theorem afterJoin_keeps (moment : Moment) (next : AfterJoin) : Script.Keeps frame (afterJoin moment next) := by
  cases next with
  | schedule => exact scheduleNext_keeps
  | ask s => exact askNumber_keeps moment s

theorem joinThen_keeps (moment : Moment) (next : AfterJoin) : Script.Keeps frame (joinThen moment next) := by
  refine .bind (join_keeps moment next) fun promise => ?_
  cases promise with
  | none => exact afterJoin_keeps moment next
  | some promise => exact .pure _

theorem statusAnswered_keeps (moment : Moment) (status : ℕ) (s : JsValue) :
    Script.Keeps frame (statusAnswered moment status s) := by
  refine .ite (.throw _) (.bind (.ofExcept _) fun _ => .bind (.ofExcept _) fun _ => .bind (.ofExcept _) fun _ => ?_)
  refine .bind (.update fun _ => rfl) fun _ => .bind (.update fun _ => rfl) fun _ => .bind (.read _) fun _ => ?_
  refine .ite scheduleNext_keeps (.ite ?_ (.ite ?_ (.ite ?_ ?_)))
  · refine .bind (.update fun _ => rfl) fun _ => .bind (.ofExcept _) fun _ => ?_
    exact .ite (joinThen_keeps moment .schedule) scheduleNext_keeps
  · exact .bind (.ofExcept _) fun _ => scheduleNext_keeps
  · exact .bind (.update (frame_navigate .root)) fun _ => .pure _
  · exact .bind (.update fun _ => rfl) fun _ => joinThen_keeps moment (.ask s)

/-- What is done with an answer leaves the other chains and the browser's own state alone. -/
theorem resume_keeps (moment : Moment) (answer : Answer) (promise : Awaiting) :
    Script.Keeps frame (resume moment answer promise) := by
  cases promise with
  | status => exact .bind (getJSON_keeps moment answer) fun _ => statusAnswered_keeps moment _ _
  | digest next =>
      cases answer with
      | rejected => exact .bind (.update fun _ => rfl) fun _ => .throw _
      | resolved response => exact .bind (.update fun _ => rfl) fun _ => .pure _
  | join next => exact .bind (joinAnswered_keeps moment answer) fun _ => afterJoin_keeps moment next
  | queueNum s => exact .bind (getJSON_keeps moment answer) fun _ => queueAnswered_keeps moment s _ _
  | token =>
      refine .bind ?_ fun _ => .bind (tokenAnswered_keeps moment _ _) fun _ => afterRedeem_keeps
      exact .tryCatch (postJSON_keeps moment answer) fun _ => .bind (.update fun _ => rfl) fun _ => .throw _

end Frame

/-! ## One chain at a time -/

/-- At most one chain is in flight, and `inFlight` says whether one is. -/
structure Single (page : State) : Prop where
  atMostOne : page.chains.length ≤ 1
  inFlight : page.inFlight = true ↔ page.chains ≠ []

namespace Single

variable {page page' : State}

theorem of_frame (same : frame page' = frame page) (single : Single page) : Single page' := by
  obtain ⟨chains, rest⟩ := Prod.mk.inj same
  obtain ⟨inFlight, -⟩ := Prod.mk.inj rest
  exact ⟨chains ▸ single.atMostOne, chains ▸ inFlight ▸ single.inFlight⟩

/-- A poll starts only where none is in flight. -/
theorem tick (moment : Moment) (single : Single page) : Single (page.tick moment) := by
  rw [State.tick]
  split_ifs with busy
  · exact ⟨single.atMostOne, single.inFlight⟩
  · have idle : page.chains = [] := by
      by_contra chained
      exact busy (single.inFlight.mpr chained)
    simp only [idle]
    exact ⟨le_rfl, by simp⟩

theorem visibilityChange (moment : Moment) (single : Single page) :
    Single (page.visibilityChange moment) := by
  have cleared : Single page.dropTimer := single.of_frame frame_dropTimer
  rw [State.visibilityChange]
  split_ifs
  · exact single
  · exact cleared
  · exact cleared.tick moment
  · exact cleared.of_frame frame_setTimeout

/-- The chain that settles is the only one. -/
theorem settles (single : Single page) {chain : ℕ} {promise : Awaiting}
    (chained : page.chains[chain]? = some promise) :
    page.chains = [promise] ∧ page.chains.eraseIdx chain = [] ∧ page.inFlight = true := by
  obtain ⟨atMostOne, inFlight⟩ := single
  match chains : page.chains, chain, chained with
  | [_], 0, chained =>
      obtain rfl := Option.some.inj chained
      exact ⟨rfl, rfl, inFlight.mpr (by simp [chains])⟩
  | [_], chain + 1, chained => simp at chained
  | [], chain, chained => simp at chained
  | _ :: _ :: _, _, _ => simp [chains] at atMostOne

/-- A chain goes on alone, or ends and is no longer in flight. -/
theorem conclude {page : State} (alone : page.chains = []) (inFlight : page.inFlight = true)
    (result : Except JsError Progress) : Single (Page.conclude (result, page)) := by
  rcases result with error | promise | _
  · obtain ⟨chains, -⟩ := Prod.mk.inj (frame_schedule page)
    exact ⟨by simp [Page.conclude, chains, alone], by simp [Page.conclude, chains, alone]⟩
  · exact ⟨by simp [Page.conclude, alone], by simp [Page.conclude, inFlight]⟩
  · exact ⟨by simp [Page.conclude, alone], by simp [Page.conclude, alone]⟩

theorem step {moment : Moment} {event : Event} (single : Single page)
    (steps : Page.step moment event page = some page') : Single page' := by
  cases event with
  | fire handle =>
      rw [Page.step] at steps
      split_ifs at steps with pending
      obtain rfl := Option.some.inj steps
      exact tick moment ⟨single.atMostOne, single.inFlight⟩
  | visibility hidden =>
      obtain rfl := Option.some.inj steps
      exact visibilityChange moment ⟨single.atMostOne, single.inFlight⟩
  | settle chain answer =>
      obtain ⟨promise, chained, rfl⟩ := Option.map_eq_some_iff.mp steps
      obtain ⟨-, alone, inFlight⟩ := single.settles chained
      have kept := resume_keeps moment answer promise { page with chains := page.chains.eraseIdx chain }
      obtain ⟨chains, rest⟩ := Prod.mk.inj kept
      exact conclude (chains.trans alone) ((Prod.mk.inj rest).1.trans inFlight) _

end Single

theorem single_of_reached {allowed : State → Moment → Event → Prop} {page : State} (reached : Reached allowed page) :
    Single page := by
  induction reached with
  | load search subtle hidden moment => exact Single.tick moment ⟨Nat.zero_le 1, by simp⟩
  | step _ _ steps ih => exact ih.step steps

/-! ## One address -/

section Search

variable {page page' : State}

end Search

/-! ## A poll to come -/

/-- What keeps the visitor from being forgotten: the end, or a poll to come. -/
def Alive (page : State) : Prop :=
  page.stopped = true ∨ page.hidden = true ∨ page.chains ≠ [] ∨ page.timers ≠ [] ∨ page.navigations ≠ []

/-- The page has stopped for good, or is on its way elsewhere. -/
def Ended (page : State) : Prop := page.stopped = true ∨ page.navigations ≠ []

/-- An attempt to redeem that no chain makes any more has ended the page. -/
def Owned (page : State) : Prop := page.admitting = true → Ended page

/-- No chain is needed: the page has ended, is hidden, or has a timer. -/
def Rests (page : State) : Prop := Ended page ∨ page.hidden = true ∨ page.timers ≠ []

/-- How a chain may go on: with an attempt to redeem that it makes itself, or to an end at rest. -/
def Onward : Progress → State → Prop
  | .awaiting promise, page => page.admitting = true → promise = .token ∨ Ended page
  | .settled, page => Owned page ∧ Rests page

/-- What scheduling a poll leaves alone. -/
def standing (page : State) : Bool × List Destination × Bool :=
  (page.stopped, page.navigations, page.admitting)

section Standing

variable {page page' : State}

theorem standing_clearTimer : standing page.clearTimer = standing page := by
  rw [State.clearTimer]
  split <;> rfl

theorem standing_schedule : standing page.schedule = standing page := by
  rw [State.schedule]
  split_ifs
  · rfl
  · exact standing_clearTimer
  · exact standing_clearTimer
  · exact standing_clearTimer

theorem Ended.of_standing (same : standing page' = standing page) (ended : Ended page) : Ended page' := by
  obtain ⟨stopped, rest⟩ := Prod.mk.inj same
  obtain ⟨navigations, -⟩ := Prod.mk.inj rest
  rw [Ended, stopped, navigations]
  exact ended

theorem Owned.of_standing (same : standing page' = standing page) (owned : Owned page) : Owned page' := by
  intro admitting
  obtain ⟨-, rest⟩ := Prod.mk.inj same
  exact (owned ((Prod.mk.inj rest).2 ▸ admitting)).of_standing same

theorem Ended.owned (ended : Ended page) : Owned page := fun _ => ended

theorem Ended.rests (ended : Ended page) : Rests page := .inl ended

theorem ended_stop (page : State) : Ended page.stop := .inl rfl

theorem ended_navigate (destination : Destination) (page : State) : Ended (page.navigate destination) :=
  .inr (by simp [State.navigate])

theorem timers_setTimeout (page : State) : page.setTimeout.timers ≠ [] := by simp [State.setTimeout]

theorem hidden_clearTimer : page.clearTimer.hidden = page.hidden := by
  rw [State.clearTimer]
  split <;> rfl

/-- Scheduling a poll leaves nothing else to do. -/
theorem rests_schedule (page : State) : Rests page.schedule := by
  rw [State.schedule]
  split_ifs with stopped hidden
  · exact .inl (.inl stopped)
  · exact .inr (.inl (hidden_clearTimer.trans hidden))
  · exact .inr (.inr (timers_setTimeout _))
  · exact .inr (.inr (timers_setTimeout _))

theorem Rests.alive (rests : Rests page) : Alive page := by
  rcases rests with (stopped | navigations) | hidden | timers
  · exact .inl stopped
  · exact .inr (.inr (.inr (.inr navigations)))
  · exact .inr (.inl hidden)
  · exact .inr (.inr (.inr (.inl timers)))

end Standing

/-! ## What each answer leads to -/

section Answers

variable {moment : Moment} {answer : Answer}

theorem scheduleNext_meets : Script.Meets Owned scheduleNext Onward Owned := by
  refine .update_bind (fun page => Owned page ∧ Rests page) ?_ (.pure fun _ here => here)
  exact fun page owned => ⟨owned.of_standing standing_schedule, rests_schedule page⟩

theorem renewWafToken_meets {before : State → Prop} :
    Script.Meets before (renewWafToken moment) (fun _ => Ended) Ended := by
  refine .update_bind Ended (fun page _ => ended_stop page) (.read_bind fun mark => ?_)
  cases mark with
  | none => exact .update fun page _ => ended_navigate .verify page
  | some last =>
      refine .ite (fun _ => .pure fun _ here => here.1) fun _ => ?_
      exact .update fun page _ => ended_navigate .verify page

/-- What the network says leaves the page as it was, unless it ends it. -/
theorem checkWaf_meets {before thrown : State → Prop} (unchanged : ∀ page, before page → thrown page)
    (ended : ∀ page, Ended page → thrown page) :
    Script.Meets before (checkWaf moment answer)
      (fun response page => before page ∧ answer = .resolved response ∧ response.waf = false) thrown := by
  cases answer with
  | rejected => exact .throw unchanged
  | resolved response =>
      refine .ite (fun _ => ?_) fun passes => .pure fun page here => ⟨here, rfl, by simpa using passes⟩
      exact .bind (renewWafToken_meets.mono (fun _ here => here) (fun _ => ended) ended) fun _ =>
        .throw fun _ here => here

theorem getJSON_meets : Script.Meets Owned (getJSON moment answer) (fun _ => Owned) Owned := by
  refine .bind (checkWaf_meets (fun _ owned => owned) fun _ => Ended.owned) fun response => ?_
  cases response.body with
  | none => exact .throw fun _ here => here.1
  | some body => exact .pure fun _ here => here.1

/-- The status and the body a `POST` is answered with. -/
theorem postJSON_meets {before thrown : State → Prop} (unchanged : ∀ page, before page → thrown page)
    (ended : ∀ page, Ended page → thrown page) :
    Script.Meets before (postJSON moment answer)
      (fun result page => before page ∧ ∃ response, answer = .resolved response ∧ response.waf = false ∧
        result = (response.status, response.body.getD (.object []))) thrown := by
  refine .bind (checkWaf_meets unchanged ended) fun response => .pure fun page here => ?_
  exact ⟨here.1, response, here.2.1, here.2.2, rfl⟩

theorem join_meets {next : AfterJoin} :
    Script.Meets Owned (join moment next) (fun _ => Owned) Owned := by
  refine .read_step fun page => .ite (fun _ => ?_) fun _ => .ite (fun _ => .pure fun _ owned => owned) fun _ => ?_
  · exact .update_step (fun _ owned => owned) (.pure fun _ owned => owned)
  have stops : Script.Meets Owned (do Script.update State.stop; return none : Work (Option Awaiting))
      (fun _ => Owned) Owned :=
    .update_bind Ended (fun page _ => ended_stop page) (.pure fun _ => Ended.owned)
  refine .ite (fun _ => stops) fun _ => .ite (fun _ => stops) fun _ => ?_
  refine .update_step (fun _ owned => owned) ?_
  cases page.digest with
  | none => exact .pure fun _ owned => owned
  | some made =>
      cases made with
      | true => exact .pure fun _ owned => owned
      | false => exact .throw fun _ owned => owned

theorem joinAnswered_meets : Script.Meets Owned (joinAnswered moment answer) (fun _ => Owned) Owned := by
  refine .bind (postJSON_meets (fun _ owned => owned) fun _ => Ended.owned) fun result => ?_
  exact .ite (fun _ => .update fun _ here => here.1) fun _ => .update fun _ here => here.1

/-- An attempt is made by the chain that asks for it, or the page has ended. -/
theorem redeem_meets : Script.Meets Owned redeem Onward Owned := by
  refine .read_bind fun admitting => .ite (fun holds => .pure fun page here => ?_) fun _ => ?_
  · have ended : Ended page := here.1 (here.2.trans holds)
    exact ⟨ended.owned, ended.rests⟩
  · exact .update_bind (fun _ => True) (fun _ _ => trivial) (.pure fun _ _ _ => .inl rfl)

theorem afterRedeem_meets : Script.Meets Owned afterRedeem Onward Owned := by
  refine .read_bind fun admitting => .ite (fun holds => .pure fun page here => ?_) fun _ => ?_
  · have ended : Ended page := here.1 (here.2.trans holds)
    exact ⟨ended.owned, ended.rests⟩
  · exact scheduleNext_meets.mono (fun _ here => here.1) (fun _ _ here => here) fun _ owned => owned

theorem queueAnswered_meets {s body : JsValue} {status : ℕ} :
    Script.Meets Owned (queueAnswered moment s status body) Onward Owned := by
  refine .ite (fun _ => ?_) fun _ => .update_step (fun _ owned => owned) (.ite (fun _ => ?_) fun _ => ?_)
  · -- no place is known by this number
    refine .update_step (fun _ owned => owned) (.read_step fun misses => .ite (fun _ => ?_) fun _ => ?_)
    · refine .update_step (fun _ owned => owned) (.read_step fun cycles => .ite (fun _ => ?_) fun _ => ?_)
      · exact .update_bind Ended (fun page _ => ended_stop page)
          (.pure fun _ ended => ⟨ended.owned, ended.rests⟩)
      · exact .update_step (fun _ owned => owned) scheduleNext_meets
    · exact scheduleNext_meets
  · exact .throw fun _ owned => owned
  · refine .ofExcept_step fun position => .update_step (fun _ owned => owned) ?_
    refine .ofExcept_step fun _ => .ofExcept_step fun reached => ?_
    exact .ite (fun _ => redeem_meets) fun _ => .ofExcept_step fun _ => scheduleNext_meets

theorem askNumber_meets {s : JsValue} : Script.Meets Owned (askNumber moment s) Onward Owned := by
  refine .read_step fun page => ?_
  split
  · exact .ite (fun _ => scheduleNext_meets) fun _ => .pure fun page owned admitting => .inr (owned admitting)
  · exact queueAnswered_meets

theorem afterJoin_meets {next : AfterJoin} : Script.Meets Owned (afterJoin moment next) Onward Owned := by
  cases next with
  | schedule => exact scheduleNext_meets
  | ask s => exact askNumber_meets

theorem joinThen_meets {next : AfterJoin} : Script.Meets Owned (joinThen moment next) Onward Owned := by
  refine .bind join_meets fun promise => ?_
  cases promise with
  | none => exact afterJoin_meets
  | some promise => exact .pure fun page owned admitting => .inr (owned admitting)

theorem statusAnswered_meets {status : ℕ} {s : JsValue} :
    Script.Meets Owned (statusAnswered moment status s) Onward Owned := by
  refine .ite (fun _ => .throw fun _ owned => owned) fun _ => ?_
  refine .ofExcept_step fun message => .ofExcept_step fun _ => .ofExcept_step fun _ => ?_
  refine .update_step (fun _ owned => owned) (.update_step (fun _ owned => owned) (.read_step fun eventId => ?_))
  refine .ite (fun _ => scheduleNext_meets) fun _ => .ite (fun _ => ?_) fun _ => .ite (fun _ => ?_) fun _ =>
    .ite (fun _ => ?_) fun _ => ?_
  · refine .update_step (fun _ owned => owned) (.ofExcept_step fun _ => ?_)
    exact .ite (fun _ => joinThen_meets) fun _ => scheduleNext_meets
  · exact .ofExcept_step fun _ => scheduleNext_meets
  · exact .update_bind Ended (fun page _ => ended_navigate .root page)
      (.pure fun _ ended => ⟨ended.owned, ended.rests⟩)
  · exact .update_step (fun _ owned => owned) joinThen_meets

/-- What is done with any answer but one to an attempt to redeem. -/
theorem resume_meets {promise : Awaiting} (other : promise ≠ .token) :
    Script.Meets Owned (resume moment answer promise) Onward Owned := by
  cases promise with
  | status => exact .bind getJSON_meets fun _ => statusAnswered_meets
  | digest next =>
      cases answer with
      | rejected => exact .update_step (fun _ owned => owned) (.throw fun _ owned => owned)
      | resolved response =>
          exact .update_step (fun _ owned => owned) (.pure fun _ owned admitting => .inr (owned admitting))
  | join next => exact .bind joinAnswered_meets fun _ => afterJoin_meets
  | queueNum s => exact .bind getJSON_meets fun _ => queueAnswered_meets
  | token => exact absurd rfl other

/-- Only a body that has no members stops the script from reading whether the visitor is admitted. -/
theorem admitted_fails {status : ℕ} {body : JsValue} {error : JsError}
    (fails : admitted status body = .error error) : status = 200 ∧ (body = .null ∨ body = .undefined) := by
  rw [admitted] at fails
  split_ifs at fails with ok
  refine ⟨ok, ?_⟩
  cases body with
  | null => exact .inl rfl
  | undefined => exact .inr rfl
  | _ => cases fails

/-- An admission of status 200 whose JSON is `null`. -/
def NullAdmitted : Answer → Prop
  | .rejected => False
  | .resolved response =>
      response.waf = false ∧ response.status = 200 ∧
        (response.body = some .null ∨ response.body = some .undefined)

/-- The gate refused the visitor's network, and the page has just had its session renewed. -/
def Rebound (moment : Moment) (search : Units) : Prop :=
  refusedNetwork search = true ∧ (moment.now : ℚ) - moment.storedRebind < 60000

/-- A visitor who is let in can be followed to where the page's address says. -/
def Addressed (moment : Moment) (search : Units) : Prop :=
  Rebound moment search ∨ moment.parses (nextDestination search) = true

/-- An admission, and the page is to go to what the browser cannot read as an address. -/
def Misled (moment : Moment) (search : Units) : Answer → Prop
  | .rejected => False
  | .resolved response =>
      response.waf = false ∧ admitted response.status (response.body.getD (.object [])) = .ok true ∧
        ¬ Addressed moment search

theorem tokenAnswered_meets {status : ℕ} {body : JsValue}
    (reads : ¬ (status = 200 ∧ (body = .null ∨ body = .undefined))) :
    Script.Meets (fun page => admitted status body = .ok true → Addressed moment page.search)
      (tokenAnswered moment status body) (fun _ => Owned) Owned := by
  refine .ofExcept_bind (fun admits result => .ite (fun holds => ?_) fun _ => ?_)
    fun _ fails => absurd (admitted_fails fails) reads
  · subst holds
    refine .read_bind fun search => .ite (fun _ => ?_) fun remains => .ite (fun unread => ?_) fun _ => ?_
    · exact .update fun page _ => (ended_stop page).owned
    · refine .throw fun page here => ?_
      rcases here.2 ▸ here.1 result with ⟨refused, recent⟩ | parses
      · exact absurd (by simp [refused, recent]) remains
      · simp [parses] at unread
    · exact .update fun page _ => (ended_navigate .next page).owned
  · refine .update_bind Owned (fun page _ => nofun) (.ite (fun _ => ?_) fun _ => .pure fun _ owned => owned)
    exact .update fun page _ => (ended_stop page).owned

/-- An attempt to redeem is over when it is answered, unless the answer is `null` or leads nowhere. -/
theorem resume_token_meets (reads : ¬ NullAdmitted answer) :
    Script.Meets (fun page => ¬ Misled moment page.search answer) (resume moment answer .token) Onward Owned := by
  refine .bind (.tryCatch (postJSON_meets (fun _ _ => trivial) fun _ _ => trivial) fun error => ?_)
    fun result => ?_
  · exact .update_bind Owned (fun _ _ => nofun) (.throw fun _ owned => owned)
  intro page here
  obtain ⟨leads, response, rfl, passes, rfl⟩ := here
  refine Script.Meets.bind (tokenAnswered_meets ?_) (fun _ => afterRedeem_meets) page fun admits => ?_
  · rintro ⟨status, body⟩
    refine reads ⟨passes, status, ?_⟩
    cases answered : response.body with
    | none => simp [answered] at body
    | some value => simpa [answered] using body
  · exact by_contra fun nowhere => leads ⟨passes, admits, nowhere⟩

end Answers

/-! ## Every run -/

/-- A chain that is waiting for an admission is answered. -/
def Redeems (page : State) (event : Event) (answer : Answer) : Prop :=
  ∃ chain, event = .settle chain answer ∧ page.chains[chain]? = some .token

/-- An admission is answered with `null`, or leads nowhere. -/
def LostAdmission (page : State) (moment : Moment) (event : Event) : Prop :=
  ∃ answer, Redeems page event answer ∧ (NullAdmitted answer ∨ Misled moment page.search answer)

/-- An attempt to redeem is made by a chain in flight, or has ended the page. -/
def Attended (page : State) : Prop := page.admitting = true → Ended page ∨ .token ∈ page.chains

/-- What keeps the page going: something to come, and no attempt to redeem that is left behind. -/
structure Lively (page : State) : Prop where
  alive : Alive page
  attended : Attended page

section Lively

variable {page page' : State}

theorem Attended.of_same (same : standing page' = standing page) (chains : page'.chains = page.chains)
    (attended : Attended page) : Attended page' := by
  intro admitting
  obtain ⟨-, rest⟩ := Prod.mk.inj same
  rw [chains]
  exact (attended ((Prod.mk.inj rest).2 ▸ admitting)).imp_left fun ended => ended.of_standing same

theorem Attended.dropTimer (attended : Attended page) : Attended page.dropTimer :=
  attended.of_same standing_clearTimer (Prod.mk.inj frame_dropTimer).1

theorem lively_tick (moment : Moment) (single : Single page) (attended : Attended page) :
    Lively (page.tick moment) := by
  rw [State.tick]
  split_ifs with busy
  · exact ⟨.inr (.inr (.inl (single.inFlight.mp busy))), attended⟩
  · refine ⟨.inr (.inr (.inl (by simp))), fun admitting => (attended admitting).imp_right fun redeeming => ?_⟩
    exact List.mem_append_left _ redeeming

theorem lively_visibilityChange (moment : Moment) (single : Single page) (attended : Attended page) :
    Lively (page.visibilityChange moment) := by
  rw [State.visibilityChange]
  split_ifs with stopped hidden
  · exact ⟨.inl stopped, attended⟩
  · exact ⟨.inr (.inl (hidden_clearTimer.trans hidden)), attended.dropTimer⟩
  · exact lively_tick moment (single.of_frame frame_dropTimer) attended.dropTimer
  · exact ⟨.inr (.inr (.inr (.inl (timers_setTimeout _)))), attended.dropTimer⟩

/-- A chain that goes on as it may leaves the page lively. -/
theorem lively_conclude {outcome : Except JsError Progress × State}
    (onward : Script.Ends Onward Owned outcome) : Lively (conclude outcome) := by
  rcases outcome with ⟨error | promise | _, page⟩
  · exact ⟨(rests_schedule page).alive, fun admitting => .inl (onward.of_standing standing_schedule admitting)⟩
  · refine ⟨.inr (.inr (.inl (by simp [conclude]))), fun admitting => ?_⟩
    rcases onward admitting with rfl | ended
    · exact .inr (by simp [conclude])
    · exact .inl ended
  · exact ⟨onward.2.alive, fun admitting => .inl (onward.1 admitting)⟩

/-- One event leaves the page lively, unless it is an admission that is lost. -/
theorem lively_step {moment : Moment} {event : Event} (single : Single page) (lively : Lively page)
    (allows : ¬ LostAdmission page moment event) (steps : step moment event page = some page') : Lively page' := by
  cases event with
  | fire handle =>
      rw [step] at steps
      split_ifs at steps with pending
      obtain rfl := Option.some.inj steps
      exact lively_tick moment ⟨single.atMostOne, single.inFlight⟩ lively.attended
  | visibility hidden =>
      obtain rfl := Option.some.inj steps
      exact lively_visibilityChange moment ⟨single.atMostOne, single.inFlight⟩ lively.attended
  | settle chain answer =>
      obtain ⟨promise, chained, rfl⟩ := Option.map_eq_some_iff.mp steps
      obtain ⟨alone, -, -⟩ := single.settles chained
      by_cases redeeming : promise = .token
      · subst redeeming
        have reads : ¬ NullAdmitted answer := fun null => allows ⟨answer, ⟨chain, rfl, chained⟩, .inl null⟩
        have leads : ¬ Misled moment page.search answer :=
          fun nowhere => allows ⟨answer, ⟨chain, rfl, chained⟩, .inr nowhere⟩
        exact lively_conclude (resume_token_meets reads _ leads)
      · refine lively_conclude (resume_meets redeeming _ fun admitting => ?_)
        -- the chain that settles is the only one, so no other redeems
        refine (lively.attended admitting).resolve_right fun member => ?_
        rw [alone, List.mem_singleton] at member
        exact redeeming member.symm

theorem lively_of_reached (reached : Reached (fun page moment event => ¬ LostAdmission page moment event) page) :
    Lively page := by
  induction reached with
  | load search subtle hidden moment => exact lively_tick moment ⟨Nat.zero_le 1, by simp⟩ nofun
  | step reached allows steps ih => exact lively_step (single_of_reached reached) ih allows steps

end Lively

/-- A chain that is claiming a place. -/
def Awaiting.joins : Awaiting → Bool
  | .digest _ | .join _ => true
  | _ => false

/-- **Whatever the browser does, one chain at most is in flight, and one at most is joining; and unless
an admission is answered with the JSON `null` or leads to what is no address, the page has stopped, is
hidden, has a chain in flight or a timer pending, or is on its way elsewhere.** -/
theorem poll_loop_lives (page : State) :
    (Reached (fun _ _ _ => True) page → page.chains.length ≤ 1 ∧ page.chains.countP Awaiting.joins ≤ 1) ∧
      (Reached (fun page moment event => ¬ LostAdmission page moment event) page → Alive page) := by
  refine ⟨fun reached => ?_, fun reached => (lively_of_reached reached).alive⟩
  have atMostOne := (single_of_reached reached).atMostOne
  exact ⟨atMostOne, List.countP_le_length.trans atMostOne⟩

/-- A browser that holds a place, draws everything it is given, and reads plain authorities. -/
def sampleMoment : Moment :=
  { now := 1, random := 0, storedJoined := true, storedRebind := 0, draw := fun _ => .ok ()
    lessThan := fun _ _ => .ok false, toNumber := fun _ => none
    hosts := ⟨fun authority => if 91 ∈ authority then none else some (), fun _ _ => some ()⟩ }

/-- A poll that failed is followed by another. -/
theorem poll_loop_lives_sample :
    ∃ page, step sampleMoment (.settle 0 .rejected) (load [] true false sampleMoment) = some page ∧
      page.chains.length ≤ 1 ∧ Alive page := by
  obtain ⟨page, steps⟩ :
      ∃ page, step sampleMoment (.settle 0 .rejected) (load [] true false sampleMoment) = some page := ⟨_, rfl⟩
  refine ⟨page, steps, ((poll_loop_lives page).1 (.step (.load [] true false _) trivial steps)).1, ?_⟩
  refine (poll_loop_lives page).2 (.step (.load [] true false _) ?_ steps)
  rintro ⟨answer, ⟨chain, same, -⟩, null | nowhere⟩
  · cases same
    exact null
  · cases same
    exact nowhere

/-! ## A page left behind -/

/-- Several events, each where it can happen. -/
def runFrom (page : State) : List (Moment × Event) → Option State
  | [] => some page
  | (moment, event) :: events => (step moment event page).bind fun later => runFrom later events

theorem reached_runFrom {allowed : State → Moment → Event → Prop} {page page' : State}
    {events : List (Moment × Event)} (allows : ∀ event ∈ events, ∀ page, allowed page event.1 event.2)
    (reached : Reached allowed page) (runs : runFrom page events = some page') : Reached allowed page' := by
  induction events generalizing page with
  | nil =>
      obtain rfl := Option.some.inj runs
      exact reached
  | cons event events ih =>
      obtain ⟨later, steps, runs⟩ := Option.bind_eq_some_iff.mp runs
      exact ih (fun event member => allows event (List.mem_cons_of_mem _ member))
        (.step reached (allows event List.mem_cons_self page) steps) runs

/-- A JSON answer of status 200. -/
def sampleAnswer (body : JsValue) : Answer := .resolved ⟨false, 200, some body⟩

/-- An event that is open, with its cursor at ten. -/
def sampleStatus : Answer :=
  sampleAnswer (.object [(utf16 "event_id", .string (utf16 "sale")),
    (utf16 "serving_state", .string (utf16 "active")), (utf16 "serving_position", .number (.finite 10))])

/-- A page that nobody comes back to. -/
def stranded (page : State) : Bool :=
  !page.stopped && !page.hidden && page.chains.isEmpty && page.timers.isEmpty && page.navigations.isEmpty

theorem not_alive_of_stranded {page : State} (left : stranded page = true) : ¬ Alive page := by
  intro alive
  simp only [stranded, Bool.and_eq_true, Bool.not_eq_true', List.isEmpty_iff] at left
  obtain ⟨⟨⟨⟨stopped, hidden⟩, chains⟩, timers⟩, navigations⟩ := left
  simp [Alive, stopped, hidden, chains, timers, navigations] at alive

/-- Two polls of an open event by a visitor at its front, and an answer to the attempt that the first
makes. -/
def frontOfLine (admission : JsValue) : List (Moment × Event) :=
  [(sampleMoment, .settle 0 sampleStatus),
    (sampleMoment, .settle 0 (sampleAnswer (.object [(utf16 "position", .number (.finite 5))]))),
    (sampleMoment, .settle 0 (sampleAnswer admission)), (sampleMoment, .fire 0),
    (sampleMoment, .settle 0 sampleStatus)]

/-- **An admission answered with `null` strands the page**: the attempt to redeem stays under way, the
next poll reaches the front, makes no other attempt, and schedules nothing. -/
theorem null_admission_strands : ¬ ∀ page, Reached (fun _ _ _ => True) page → Alive page := by
  intro every
  have ends : (runFrom (load [] true false sampleMoment) (frontOfLine .null)).any stranded = true := by
    decide +kernel
  obtain ⟨page, runs, left⟩ := Option.any_eq_true _ _ |>.mp ends
  exact not_alive_of_stranded left
    (every page (reached_runFrom (fun _ _ _ => trivial) (.load [] true false sampleMoment) runs))

/-- **So does one that leads to what is no address**, where none is answered with `null`: a second slash
hidden behind a tab, and a host that cannot be read. -/
theorem bad_address_strands :
    ¬ ∀ page, Reached (fun page _ event => ∀ answer, Redeems page event answer → ¬ NullAdmitted answer) page →
      Alive page := by
  intro every
  have ends : (runFrom (load (utf16 "?next=/%09/%5B") true false sampleMoment)
      (frontOfLine (.object [(utf16 "admitted", .bool true)]))).any stranded = true := by
    decide +kernel
  obtain ⟨page, runs, left⟩ := Option.any_eq_true _ _ |>.mp ends
  refine not_alive_of_stranded left (every page (reached_runFrom ?_ (.load _ true false sampleMoment) runs))
  intro event member page answer ⟨chain, same, _⟩ null
  simp only [frontOfLine, List.mem_cons, List.not_mem_nil, or_false] at member
  rcases member with rfl | rfl | rfl | rfl | rfl <;> cases same <;> simp [NullAdmitted, sampleStatus, sampleAnswer] at null

end WaitingRoom.Page
