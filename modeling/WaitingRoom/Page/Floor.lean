import WaitingRoom.Page.Pace

/-!
# The poll floor

A chain that does not fail sets the interval it schedules under the policy it has adopted
(`Timed.resume_continues`). One that fails schedules the interval of the chain before it. So two fetches of
the status are at least the floor apart that was in force when the timer of the second was set, in every run
in which no chain fails with the floor above the interval (`Timed.floor_elapses`), and every delay is a
finite number in any run. Where the chain that fails has adopted a higher floor, the next poll comes too
early (`Timed.retry_beats_floor`).
-/

set_option autoImplicit false

namespace WaitingRoom.Page

open Text Edge Concurrency

/-- What goes on with an interval that is set already. -/
def AfterJoin.intervalSet : AfterJoin → Prop
  | .schedule => True
  | .ask _ => False

def Awaiting.intervalSet : Awaiting → Prop
  | .digest next | .join next => next.intervalSet
  | .token => True
  | .status | .queueNum _ => False

section Returns

variable {moment : Moment} {answer : Answer}

/-- What was answered, where it is read. -/
theorem getJSON_returns :
    Script.Meets (fun _ => True) (getJSON moment answer)
      (fun result _ => ∃ response, answer = .resolved response ∧ response.waf = false ∧
        response.status = result.1 ∧ response.body = some result.2) fun _ => True := by
  refine .bind (checkWaf_meets (fun _ _ => trivial) fun _ _ => trivial) fun response => ?_
  cases body : response.body with
  | none => exact .throw fun _ _ => trivial
  | some s => exact .pure fun _ here => ⟨response, here.2.1, here.2.2, rfl, body⟩

/-- A chain that joins waits for the digest or for the answer. -/
theorem join_returns {next : AfterJoin} :
    Script.Meets (fun _ => True) (join moment next)
      (fun promise _ => promise = none ∨ promise = some (.digest next) ∨ promise = some (.join next))
      fun _ => True := by
  refine .read_step fun page => .ite (fun _ => ?_) fun _ => .ite (fun _ => .pure fun _ _ => .inl rfl) fun _ => ?_
  · exact .update_step (fun _ _ => trivial) (.pure fun _ _ => .inl rfl)
  refine .ite (fun _ => .update_step (fun _ _ => trivial) (.pure fun _ _ => .inl rfl)) fun _ => ?_
  refine .ite (fun _ => .update_step (fun _ _ => trivial) (.pure fun _ _ => .inl rfl)) fun _ => ?_
  refine .update_step (fun _ _ => trivial) ?_
  cases page.digest with
  | none => exact .pure fun _ _ => .inr (.inl rfl)
  | some made =>
      cases made with
      | true => exact .pure fun _ _ => .inr (.inr rfl)
      | false => exact .throw fun _ _ => trivial

end Returns

namespace Timed

/-! ## What each answer leads to -/

/-- How a chain may go on: with the interval it has set, if it will schedule it. -/
def Continues (held : Prop) : Progress → Timed → Prop
  | .awaiting promise, timed => Primed held promise.intervalSet timed
  | .settled, timed => Kept held timed

section Answers

variable {α β : Type} {moment : Moment} {answer : Answer} {held set : Prop}

theorem Primed.continues {timed : Timed} (primed : Primed held True timed) (progress : Progress) :
    Continues held progress timed := by
  cases progress with
  | awaiting promise => exact ⟨primed.kept, fun _ => primed.timely trivial⟩
  | settled => exact primed.kept

/-- Calm work on the page, and what it returns. -/
theorem onPage_returns {work : Work α} {returned : α → Prop} (calm : Calm work)
    (returns : Script.Meets (fun _ => True) work (fun a _ => returned a) fun _ => True) :
    Script.Meets (Primed held set) (onPage work) (fun a timed => Primed held set timed ∧ returned a)
      (Kept held) := by
  have each : Script.Meets (Primed held set) (onPage work)
      (fun a timed => Primed held set timed ∧ returned a) (Primed held set) := by
    refine .within (fun _ => rfl) fun timed => ?_
    have steady : Script.Meets (fun page => Primed held set { timed with page := page }) work
        (fun _ page => Primed held set { timed with page := page })
        (fun page => Primed held set { timed with page := page }) := calm _ (primed_steady timed)
    exact (steady.and returns).mono (fun _ here => ⟨here, trivial⟩) (fun _ _ here => here) fun _ here => here.1
  exact each.mono (fun _ here => here) (fun _ _ here => here) fun _ primed => primed.kept

theorem onPage_meets {work : Work α} (calm : Calm work) :
    Script.Meets (Primed held set) (onPage work) (fun _ => Primed held set) (Kept held) := by
  have returns : Script.Meets (fun _ => True) work (fun _ _ => True) fun _ => True := by
    intro page _
    generalize work.exec page = outcome
    rcases outcome with ⟨_ | _, _⟩ <;> trivial
  exact (onPage_returns calm returns).mono (fun _ here => here) (fun _ _ here => here.1) fun _ kept => kept

theorem onPage_step {work : Work α} {next : α → TimedWork β} {after : β → Timed → Prop} (calm : Calm work)
    (rest : ∀ a, Script.Meets (Primed held set) (next a) after (Kept held)) :
    Script.Meets (Primed held set) (onPage work >>= next) after (Kept held) := .bind (onPage_meets calm) rest

/-- A step that sets the interval. -/
theorem sets_step {change : Timed → Timed} {next : Unit → TimedWork β} {after : β → Timed → Prop}
    (sets : ∀ timed, Kept held timed → Primed held True (change timed))
    (rest : Script.Meets (Primed held True) (next ()) after (Kept held)) :
    Script.Meets (Primed held set) (Script.update change >>= next) after (Kept held) :=
  .update_bind (Primed held True) (fun timed primed => sets timed primed.kept) rest

/-- The policy that is adopted may have a floor above the interval. -/
theorem adoptPolicy_meets {s : JsValue} (whole : held → ∀ policy : Policy, Whole policy.floorMs →
    Whole (adoptPolicy policy (s.member "poll_policy")).floorMs) :
    Script.Meets (Primed held set)
      (onPage (Script.update fun page => { page with policy := adoptPolicy page.policy (s.member "poll_policy") }))
      (fun _ => Primed held False) (Kept held) := by
  intro timed primed
  have measured := primed.kept.measured
  refine ⟨⟨⟨adoptPolicy_inBounds measured.policy _, measured.interval, measured.delays⟩, fun holding => ?_⟩,
    False.elim⟩
  have paced := primed.kept.paced holding
  exact ⟨whole holding _ paced.whole, paced.handles, paced.timers, paced.due, paced.past, paced.latest,
    paced.spaced⟩

section Scripts

variable (random : 0 ≤ moment.random ∧ moment.random < 1)

include random

theorem scheduleNext_continues :
    Script.Meets (Primed held True) (scheduleNext moment) (Continues held) (Kept held) := by
  refine .update_bind (Kept held) (fun timed primed => ?_) (.pure fun _ kept => kept)
  exact primed.kept.schedule random fun _ _ _ _ => primed.timely trivial

theorem afterRedeem_continues :
    Script.Meets (Primed held True) (afterRedeem moment) (Continues held) (Kept held) := by
  refine onPage_step (.read _) fun admitting => .ite (fun _ => ?_) fun _ => scheduleNext_continues random
  exact .pure fun _ primed => primed.kept

theorem queueAnswered_continues {s body : JsValue} {status : ℕ} :
    Script.Meets (Primed held set) (queueAnswered moment s status body) (Continues held) (Kept held) := by
  refine .ite (fun _ => onPage_step (.update fun _ => rfl) fun _ => ?_) fun _ =>
    onPage_step (.update fun _ => rfl) fun _ => .ite (fun _ => ?_) fun _ => ?_
  · -- no place is known by this number
    refine sets_step (fun _ => Kept.atFloor) (onPage_step (.read _) fun misses => .ite (fun _ => ?_) fun _ => ?_)
    · refine onPage_step (.update fun _ => rfl) fun _ => onPage_step (.read _) fun cycles => ?_
      refine .ite (fun _ => onPage_step .stop fun _ => .pure fun _ primed => primed.kept) fun _ => ?_
      exact onPage_step (.update fun _ => rfl) fun _ => scheduleNext_continues random
    · exact scheduleNext_continues random
  · exact .throw fun _ primed => primed.kept
  · refine onPage_step (.ofExcept _) fun position => onPage_step (.update fun _ => rfl) fun _ => ?_
    refine onPage_step (.ofExcept _) fun _ => onPage_step (.ofExcept _) fun reached => ?_
    refine .ite (fun _ => sets_step (fun _ => Kept.atFloor) ?_) fun _ => ?_
    · exact (onPage_meets redeem_calm).mono (fun _ primed => primed)
        (fun progress _ primed => primed.continues progress) fun _ kept => kept
    · refine onPage_step (.ofExcept _) fun _ => sets_step (fun _ => Kept.atPosition) ?_
      exact scheduleNext_continues random

theorem askNumber_continues {s : JsValue} :
    Script.Meets (Primed held set) (askNumber moment s) (Continues held) (Kept held) := by
  refine onPage_step (.read _) fun page => ?_
  cases page.knownPosition with
  | null =>
      refine .ite (fun _ => sets_step (fun _ => Kept.atFloor) (scheduleNext_continues random)) fun _ => ?_
      exact .pure fun _ primed => ⟨primed.kept, False.elim⟩
  | _ => exact queueAnswered_continues random

theorem afterJoin_continues {next : AfterJoin} :
    Script.Meets (Primed held next.intervalSet) (afterJoin moment next) (Continues held) (Kept held) := by
  cases next with
  | schedule => exact scheduleNext_continues random
  | ask s => exact askNumber_continues random

theorem joinThen_continues (next : AfterJoin) :
    Script.Meets (Primed held next.intervalSet) (joinThen moment next) (Continues held) (Kept held) := by
  refine .bind (onPage_returns (join_calm next) join_returns) fun promise => ?_
  cases promise with
  | none => exact (afterJoin_continues random).mono (fun _ here => here.1) (fun _ _ here => here) fun _ kept => kept
  | some waits =>
      refine .pure fun timed here => ?_
      rcases here.2 with none | same | same
      · cases none
      · obtain rfl := Option.some.inj same
        exact here.1
      · obtain rfl := Option.some.inj same
        exact here.1

theorem statusAnswered_continues {status : ℕ} {s : JsValue}
    (whole : held → status = 200 → ∀ policy : Policy, Whole policy.floorMs →
      Whole (adoptPolicy policy (s.member "poll_policy")).floorMs) :
    Script.Meets (Primed held set) (statusAnswered moment status s) (Continues held) (Kept held) := by
  refine .ite (fun _ => .throw fun _ primed => primed.kept) fun ok => ?_
  refine onPage_step (.ofExcept _) fun message => onPage_step (.ofExcept _) fun _ => ?_
  refine onPage_step (.ofExcept _) fun _ => .update_bind (Primed held False) ?_ ?_
  · exact fun _ primed => ⟨primed.kept.observeCursor, False.elim⟩
  refine .bind (adoptPolicy_meets fun holding => whole holding (not_not.mp ok)) fun _ => ?_
  refine onPage_step (.update fun _ => rfl) fun _ => onPage_step (.read _) fun eventId => ?_
  refine .ite (fun _ => sets_step (fun _ => Kept.atFloor) (scheduleNext_continues random)) fun _ =>
    .ite (fun _ => ?_) fun _ => .ite (fun _ => ?_) fun _ => .ite (fun _ => ?_) fun _ => ?_
  · refine onPage_step (.update fun _ => rfl) fun _ => sets_step (fun _ => Kept.atCeiling) ?_
    refine onPage_step (.ofExcept _) fun _ => .ite (fun _ => ?_) fun _ => scheduleNext_continues random
    exact joinThen_continues random .schedule
  · refine onPage_step (.ofExcept _) fun _ => sets_step (fun _ => Kept.atPause) ?_
    exact scheduleNext_continues random
  · exact onPage_step (.update fun _ => rfl) fun _ => .pure fun _ primed => primed.kept
  · exact onPage_step (.update fun _ => rfl) fun _ => joinThen_continues random (.ask s)

/-- **A chain that does not fail sets the interval it schedules.** -/
theorem resume_continues {promise : Awaiting}
    (whole : held → promise = .status → ∀ response s, answer = .resolved response → response.waf = false →
      response.status = 200 → response.body = some s → ∀ policy : Policy, Whole policy.floorMs →
        Whole (adoptPolicy policy (s.member "poll_policy")).floorMs) :
    Script.Meets (Primed held promise.intervalSet) (resume moment answer promise) (Continues held)
      (Kept held) := by
  cases promise with
  | status =>
      refine .bind (onPage_returns getJSON_calm getJSON_returns) fun result timed here => ?_
      obtain ⟨primed, response, answered, passes, status, body⟩ := here
      refine statusAnswered_continues random (fun holding ok => ?_) timed primed
      exact whole holding rfl response result.2 answered passes (status.trans ok) body
  | digest next =>
      cases answer with
      | rejected => exact onPage_step (.update fun _ => rfl) fun _ => .throw fun _ primed => primed.kept
      | resolved response => exact onPage_step (.update fun _ => rfl) fun _ => .pure fun _ primed => primed
  | join next => exact onPage_step joinAnswered_calm fun _ => afterJoin_continues random
  | queueNum s => exact onPage_step getJSON_calm fun _ => queueAnswered_continues random
  | token =>
      have failed : Calm (tryCatch (postJSON moment answer) fun error => do
          Script.update tokenFailed
          throw error) := .tryCatch postJSON_calm fun error => .bind (.update fun _ => rfl) fun _ => .throw _
      refine onPage_step failed fun _ => onPage_step (tokenAnswered_calm _ _) fun _ => ?_
      exact afterRedeem_continues random

end Scripts

end Answers

/-! ## Every run -/

/-- The chains that go on with an interval they have set find it set. -/
def Waiting (timed : Timed) : Prop := ∀ promise ∈ timed.page.chains, promise.intervalSet → Timely timed

/-- What holds between two events. -/
structure Running (held : Prop) (timed : Timed) : Prop where
  kept : Kept held timed
  waiting : Waiting timed

/-- A chain fails, and the page is to poll again after an interval that is below the floor. -/
def Rushed (timed : Timed) (moment : Moment) (event : Event) : Prop :=
  ∃ chain answer promise error failed, event = .settle chain answer ∧
    timed.page.chains[chain]? = some promise ∧
    outcome moment answer chain promise { timed with clock := moment.now } = (.error error, failed) ∧
    failed.page.stopped = false ∧ failed.page.hidden = false ∧ failed.page.catchUpWanted = false ∧
    above (some (.finite failed.page.policy.floorMs)) failed.nextIntervalMs

/-- The policy that is published has a floor that is no whole number of milliseconds, and is adopted. -/
def Fractional (timed : Timed) (event : Event) : Prop :=
  ∃ chain response s, event = .settle chain (.resolved response) ∧ timed.page.chains[chain]? = some .status ∧
    response.waf = false ∧ response.status = 200 ∧ response.body = some s ∧
    ¬ Whole (adoptPolicy timed.page.policy (s.member "poll_policy")).floorMs

section Running

variable {held : Prop} {timed timed' : Timed} {moment : Moment} {event : Event}

theorem Waiting.of_same {page : State} (chains : page.chains = timed.page.chains)
    (policy : page.policy = timed.page.policy) (waiting : Waiting timed) :
    Waiting { timed with page := page } := by
  intro promise member set
  have timely := waiting promise (chains ▸ member) set
  exact timely.of_policy policy

theorem Waiting.dropTimer (waiting : Waiting timed) : Waiting { timed with page := timed.page.dropTimer } :=
  waiting.of_same (Prod.mk.inj frame_dropTimer).1 (policy_clearTimer _)

theorem Waiting.tick {floorMs : ℚ} (waiting : Waiting timed) : Waiting (timed.tick moment floorMs) := by
  intro promise member set
  have policy : (timed.page.tick moment).policy = timed.page.policy := by
    rw [State.tick]
    split_ifs <;> rfl
  have asked : promise ∈ timed.page.chains := by
    rw [Timed.tick, State.tick] at member
    split_ifs at member with busy
    · exact member
    · rcases List.mem_append.mp member with earlier | started
      · exact earlier
      · rw [List.mem_singleton.mp started] at set
        exact set.elim
  obtain ⟨q, interval, least⟩ := waiting promise asked set
  exact ⟨q, interval, policy ▸ least⟩

theorem Waiting.visibilityChange (waiting : Waiting timed) : Waiting (timed.visibilityChange moment) := by
  rw [Timed.visibilityChange]
  split_ifs
  · exact waiting
  · exact waiting.dropTimer
  · exact waiting.dropTimer.tick
  · exact waiting.dropTimer

theorem Running.clock {now : ℕ} (later : timed.clock ≤ now) (running : Running held timed) :
    Running held { timed with clock := now } := by
  obtain ⟨⟨measured, paced⟩, waiting⟩ := running
  refine ⟨⟨⟨measured.policy, measured.interval, measured.delays⟩, fun holding => ?_⟩, waiting⟩
  have paced := paced holding
  exact ⟨paced.whole, paced.handles, paced.timers, paced.due, paced.past.trans later, paced.latest, paced.spaced⟩

theorem Running.shown (hidden : Bool) (running : Running held timed) :
    Running held { timed with page := { timed.page with hidden := hidden } } :=
  ⟨running.kept.of_pace rfl, running.waiting.of_same rfl rfl⟩

/-- A timer that is due fires a floor after the last poll. -/
theorem Running.fire {handle : ℕ} {alarm : Alarm} (set : timed.clock = moment.now)
    (alarmed : timed.alarms[handle]? = some alarm) (pending : handle ∈ timed.page.timers)
    (due : alarm.due ≤ timed.clock) (running : Running held timed) :
    Running held ({ timed with page :=
      { timed.page with timers := timed.page.timers.erase handle } }.tick moment alarm.floorMs) := by
  have empty (holding : held) : timed.page.timers.erase handle = [] := by
    rcases (running.kept.paced holding).timers with none | one
    · simp [none]
    · cases timer : timed.page.timer with
      | none => simp [one, timer]
      | some handle' =>
          rw [one, timer] at pending ⊢
          simp [List.mem_singleton.mp pending]
  have fired : Kept held { timed with page := { timed.page with timers := timed.page.timers.erase handle } } := by
    refine ⟨running.kept.measured.of_policy rfl, fun holding => ?_⟩
    exact (running.kept.paced holding).of_cleared rfl rfl rfl (empty holding)
  have waiting : Waiting { timed with page := { timed.page with timers := timed.page.timers.erase handle } } :=
    running.waiting.of_same rfl rfl
  refine ⟨fired.tick set empty fun holding => ?_, waiting.tick⟩
  obtain ⟨alarm', alarmed', apart⟩ := (running.kept.paced holding).due handle pending
  obtain rfl : alarm = alarm' := Option.some.inj (alarmed.symm.trans alarmed')
  have reached : (alarm.due : ℚ) ≤ timed.clock := by exact_mod_cast due
  exact apart.trans reached

/-- What is done with an answer leaves the other chains alone. -/
theorem chains_outcome (answer : Answer) (chain : ℕ) (promise : Awaiting) (timed : Timed) :
    (timed.outcome moment answer chain promise).2.page.chains = timed.page.chains.eraseIdx chain := by
  have follows : Script.Follows Timed.page (resume moment answer promise) (Page.resume moment answer promise) :=
    resume_follows answer promise
  have same := congrArg Prod.snd (follows
    { timed with page := { timed.page with chains := timed.page.chains.eraseIdx chain } })
  have kept := resume_keeps moment answer promise
    { timed.page with chains := timed.page.chains.eraseIdx chain }
  exact (congrArg State.chains same).trans (Prod.mk.inj kept).1

/-- What is no `NaN` and has the floor not above it is not below the floor. -/
theorem timely_of_not_above (measured : Measured timed)
    (paced : ¬ above (some (.finite timed.page.policy.floorMs)) timed.nextIntervalMs) : Timely timed := by
  obtain ⟨q, interval, -⟩ := measured.interval
  refine ⟨q, interval, ?_⟩
  rw [interval] at paced
  simpa [above, JsNumber.le] using paced

/-- A chain that settles goes on, or ends, or fails and is scheduled again. -/
theorem Running.settle {chain : ℕ} {answer : Answer} {promise : Awaiting}
    (random : 0 ≤ moment.random ∧ moment.random < 1) (single : Single timed.page)
    (chained : timed.page.chains[chain]? = some promise) (running : Running held timed)
    (whole : held → promise = .status → ∀ response s, answer = .resolved response → response.waf = false →
      response.status = 200 → response.body = some s → ∀ policy : Policy, Whole policy.floorMs →
        Whole (adoptPolicy policy (s.member "poll_policy")).floorMs)
    (paced : held → ∀ error failed, timed.outcome moment answer chain promise = (.error error, failed) →
      failed.page.stopped = false → failed.page.hidden = false → failed.page.catchUpWanted = false →
        ¬ above (some (.finite failed.page.policy.floorMs)) failed.nextIntervalMs) :
    Running held (conclude moment (timed.outcome moment answer chain promise)) := by
  have others : (timed.outcome moment answer chain promise).2.page.chains = [] := by
    rw [chains_outcome]
    exact (single.settles chained).2.1
  have primed : Primed held promise.intervalSet
      { timed with page := { timed.page with chains := timed.page.chains.eraseIdx chain } } := by
    refine ⟨running.kept.of_pace rfl, fun set => ?_⟩
    exact (running.waiting promise (List.mem_of_getElem? chained) set).of_policy rfl
  have continues : Script.Ends (Continues held) (Kept held) (timed.outcome moment answer chain promise) :=
    resume_continues random whole _ primed
  generalize timed.outcome moment answer chain promise = outcome at others continues paced
  rcases outcome with ⟨error | promise' | _, later⟩
  · have scheduled := Kept.schedule random continues fun holding stopped hidden wanted =>
      timely_of_not_above continues.measured (paced holding error later rfl stopped hidden wanted)
    refine ⟨scheduled.of_pace rfl, ?_⟩
    have none : (later.schedule moment).page.chains = [] := by
      rw [page_schedule, (Prod.mk.inj (frame_schedule later.page)).1]
      exact others
    intro promise member
    have absent : promise ∈ (later.schedule moment).page.chains := member
    rw [none] at absent
    cases absent
  · refine ⟨continues.kept.of_pace rfl, fun promise member set => ?_⟩
    have alone : promise ∈ later.page.chains ++ [promise'] := member
    rw [others, List.nil_append, List.mem_singleton] at alone
    subst alone
    exact (continues.timely set).of_policy rfl
  · refine ⟨continues.of_pace rfl, fun promise member => ?_⟩
    have absent : promise ∈ later.page.chains := member
    rw [others] at absent
    cases absent

theorem running_load (search : Units) (subtle hidden : Bool) (moment : Moment) :
    Running held (load search subtle hidden moment) where
  kept :=
    { measured :=
        { policy := ⟨by norm_num [load, Page.load, State.tick], le_rfl,
            by norm_num [load, Page.load, State.tick], le_rfl⟩
          interval := ⟨5000, rfl, by norm_num, by norm_num⟩
          delays := nofun }
      paced := fun _ =>
        { whole := ⟨5000, rfl⟩
          handles := rfl
          timers := .inl rfl
          due := nofun
          past := le_rfl
          latest := ⟨_, _, rfl, rfl⟩
          spaced := List.isChain_singleton _ } }
  waiting := by
    intro promise member set
    obtain rfl : promise = .status := List.mem_singleton.mp member
    exact set.elim

/-- One event keeps what every page keeps, and the floor, unless a chain fails that is rushed or the
floor that is published is a fraction. -/
theorem running_step (running : Running held timed) (single : Single timed.page)
    (keeps : held → ¬ Rushed timed moment event ∧ ¬ Fractional timed event)
    (steps : step moment event timed = some timed') : Running held timed' := by
  rw [step] at steps
  split_ifs at steps with measures
  obtain ⟨later, random⟩ := measures
  have clocked := running.clock later
  cases event with
  | fire handle =>
      rw [react] at steps
      split at steps
      · next alarm alarmed =>
        split_ifs at steps with fires
        obtain rfl := Option.some.inj steps
        exact clocked.fire rfl alarmed fires.1 fires.2
      · cases steps
  | visibility hidden =>
      obtain rfl := Option.some.inj steps
      have shown := clocked.shown hidden
      exact ⟨shown.kept.visibilityChange rfl, shown.waiting.visibilityChange⟩
  | settle chain answer =>
      obtain ⟨promise, chained, rfl⟩ := Option.map_eq_some_iff.mp steps
      refine clocked.settle random single chained ?_ ?_
      · intro holding asked response s answered passes ok body policy whole
        subst asked answered
        have published : Whole (adoptPolicy timed.page.policy (s.member "poll_policy")).floorMs := by
          by_contra fraction
          exact (keeps holding).2 ⟨chain, response, s, rfl, chained, passes, ok, body, fraction⟩
        exact adoptPolicy_whole whole published
      · intro holding error failed failing stopped hidden wanted above
        exact (keeps holding).1
          ⟨chain, answer, promise, error, failed, rfl, chained, failing, stopped, hidden, wanted, above⟩

theorem running_of_reached {allowed : Timed → Moment → Event → Prop}
    (keeps : ∀ timed moment event, allowed timed moment event → held →
      ¬ Rushed timed moment event ∧ ¬ Fractional timed event)
    (reached : Reached allowed timed) : Running held timed := by
  induction reached with
  | load search subtle hidden moment => exact running_load search subtle hidden moment
  | step reached allows steps ih =>
      exact running_step ih (single_of_reached (reached_page reached)) (keeps _ _ _ allows) steps

end Running

/-- **Two polls are a floor apart in every run in which the floors that are published are whole and no
chain fails that is rushed; and every delay that is set in any run is a finite number.** -/
theorem floor_elapses (timed : Timed) :
    (Reached (fun timed moment event => ¬ Rushed timed moment event ∧ ¬ Fractional timed event) timed →
      timed.fetches.IsChain fun later earlier => (earlier.at_ : ℚ) + later.floorMs ≤ later.at_) ∧
      (Reached (fun _ _ _ => True) timed → ∀ alarm ∈ timed.alarms, ∃ q, alarm.delay = some (.finite q)) := by
  constructor
  · intro reached
    have running : Running True timed := running_of_reached (fun _ _ _ allows _ => allows) reached
    exact (running.kept.paced trivial).spaced
  · intro reached
    have running : Running False timed := running_of_reached (fun _ _ _ _ => False.elim) reached
    exact running.kept.measured.delays

/-- A browser at a time, whose random numbers are zero. -/
def sampleAt (now : ℕ) : Moment := { sampleMoment with now := now }

/-- Several events, each where it can happen. -/
def runFrom (timed : Timed) : List (Moment × Event) → Option Timed
  | [] => some timed
  | (moment, event) :: events => (step moment event timed).bind fun later => runFrom later events

theorem reached_runFrom {timed timed' : Timed} {events : List (Moment × Event)}
    (reached : Reached (fun _ _ _ => True) timed) (runs : runFrom timed events = some timed') :
    Reached (fun _ _ _ => True) timed' := by
  induction events generalizing timed with
  | nil =>
      obtain rfl := Option.some.inj runs
      exact reached
  | cons event events ih =>
      obtain ⟨later, steps, runs⟩ := Option.bind_eq_some_iff.mp runs
      exact ih (.step reached trivial steps) runs

/-- A poll that fails is followed by another, a floor later. -/
theorem floor_elapses_sample :
    ∃ timed, runFrom (load [] true false (sampleAt 0))
        [(sampleAt 100, .settle 0 .rejected), (sampleAt 5100, .fire 0)] = some timed ∧
      timed.fetches.length = 2 ∧
      (timed.fetches.IsChain fun later earlier => (earlier.at_ : ℚ) + later.floorMs ≤ later.at_) ∧
      ∀ alarm ∈ timed.alarms, ∃ q, alarm.delay = some (.finite q) := by
  have ends : (runFrom (load [] true false (sampleAt 0))
      [(sampleAt 100, .settle 0 .rejected), (sampleAt 5100, .fire 0)]).any
        (fun timed => timed.fetches.length == 2) = true := by
    decide +kernel
  obtain ⟨timed, runs, polled⟩ := Option.any_eq_true _ _ |>.mp ends
  refine ⟨timed, runs, by simpa using polled, ?_, ?_⟩
  · obtain ⟨failed, fails, rest⟩ := Option.bind_eq_some_iff.mp runs
    obtain ⟨polls, fires, same⟩ := Option.bind_eq_some_iff.mp rest
    obtain rfl := Option.some.inj same
    refine (floor_elapses polls).1 (.step (.step (.load [] true false _) ⟨?_, ?_⟩ fails) ⟨?_, ?_⟩ fires)
    · -- the interval is the floor that is in force
      rintro ⟨chain, answer, promise, error, later, same, chained, fails, -, -, -, above⟩
      cases same
      obtain rfl := Option.some.inj chained
      obtain rfl := (Prod.mk.inj fails).2
      exact absurd above (by decide +kernel)
    · rintro ⟨chain, response, s, same, -⟩
      cases same
    · rintro ⟨chain, answer, promise, error, later, same, -⟩
      cases same
    · rintro ⟨chain, response, s, same, -⟩
      cases same
  · exact (floor_elapses timed).2 (reached_runFrom (.load [] true false _) runs)

/-- An event that is open, and a policy of a poll a minute. -/
def sampleSlower : Answer :=
  sampleAnswer (.object [(utf16 "event_id", .string (utf16 "sale")),
    (utf16 "serving_state", .string (utf16 "active")), (utf16 "serving_position", .number (.finite 10)),
    (utf16 "poll_policy", .object [(utf16 "floor_ms", .number (.finite 60000)),
      (utf16 "ceiling_ms", .number (.finite 60000)), (utf16 "divisor", .number (.finite 1))])])

/-- Whether the last fetch is less than its floor after the one before. -/
def hurries (timed : Timed) : Bool :=
  match timed.fetches with
  | later :: earlier :: _ => decide ((later.at_ : ℚ) < earlier.at_ + later.floorMs)
  | _ => false

/-- **A chain that adopts a higher floor and then fails polls again after the interval it had**: five
seconds, under a floor of a minute. -/
theorem retry_beats_floor :
    ¬ ∀ timed, Reached (fun _ _ _ => True) timed →
      timed.fetches.IsChain fun later earlier => (earlier.at_ : ℚ) + later.floorMs ≤ later.at_ := by
  intro every
  have ends : (runFrom (load [] true false (sampleAt 0))
      [(sampleAt 100, .settle 0 sampleSlower), (sampleAt 200, .settle 0 .rejected),
        (sampleAt 5200, .fire 0)]).any hurries = true := by
    decide +kernel
  obtain ⟨timed, runs, hurried⟩ := Option.any_eq_true _ _ |>.mp ends
  have spaced := every timed (reached_runFrom (.load [] true false _) runs)
  unfold hurries at hurried
  split at hurried
  · next later earlier rest fetches =>
    rw [fetches] at spaced
    have apart := (List.isChain_cons_cons.mp spaced).1
    exact absurd apart (not_le_of_gt (of_decide_eq_true hurried))
  · cases hurried

end Timed

end WaitingRoom.Page
