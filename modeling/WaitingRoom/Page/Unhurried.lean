import WaitingRoom.Page.Floor
import WaitingRoom.Page.Served

/-!
# How often a page polls its room

A page takes another policy from a document, and where its floor is higher than the interval of the page, a
retry comes too early. A room publishes one policy, and by default one whose floor is no higher than what the
page starts with. Then a page that the room serves is never below its floor (`Unhurried`), whatever fails: any
two of its polls are a floor apart, and in any window of time it makes no more polls than there are floors in
it, and one (`polls_within_floor`).
-/

set_option autoImplicit false

namespace WaitingRoom.Page

open Text Edge Concurrency Dynamo

/-- The floor that a site is polled by: the published one, or the page's own. -/
def Site.floorMs (site : Site) : ℕ := (site.pollPolicy.map PollPolicy.floorMs).getD 5000

namespace Timed

/-- A page with a clock, and the room that serves it, at a moment of a run of both. -/
inductive Served (site : Site) (origin : Db) (requestId : RequestId) : Room → Timed → Prop where
  | load {c : Room} (run : RoomRun site.deployment .free origin c) (search : Units)
      (subtle hidden : Bool) (moment : Moment) : Served site origin requestId c (load search subtle hidden moment)
  | room {c later : Room} {timed : Timed} (served : Served site origin requestId c timed)
      (goesOn : (WaitingRoom.room site.deployment).Reaches .free c later) : Served site origin requestId later timed
  | page {c : Room} {timed timed' : Timed} (served : Served site origin requestId c timed)
      {moment : Moment} {event : Event} (serves : Serves.Event site origin requestId c timed.page event)
      (steps : step moment event timed = some timed') : Served site origin requestId c timed'

/-- The interval is not below the floor, and no floor was below that of the site. -/
structure Unhurried (site : Site) (timed : Timed) : Prop where
  policy : timed.page.policy = ⟨5000, 5000, 1⟩ ∨
    ∃ published, site.pollPolicy = some published ∧ timed.page.policy = ofPublished published
  timely : Timely timed
  alarms : ∀ alarm ∈ timed.alarms, (site.floorMs : ℚ) ≤ alarm.floorMs
  fetches : ∀ fetch ∈ timed.fetches, (site.floorMs : ℚ) ≤ fetch.floorMs

section Unhurried

variable {α β : Type} {site : Site} {origin : Db} {requestId : RequestId} {c : Room} {timed timed' : Timed}
  {moment : Moment} {answer : Answer} {event : Event}

theorem ofPublished_inBounds {policy : PollPolicy} (sane : policy.Sane) : (ofPublished policy).InBounds := by
  obtain ⟨⟨floor, -⟩, ⟨-, ceiling⟩, ⟨divisor, -⟩, clamp⟩ := sane
  rw [minIntervalMs] at floor
  rw [maxIntervalMs] at ceiling
  have least : (1000 : ℚ) ≤ (policy.floorMs : ℚ) := by exact_mod_cast floor
  have greatest : (policy.ceilingMs : ℚ) ≤ 300000 := by exact_mod_cast ceiling
  have divides : (1 : ℚ) ≤ (policy.divisor : ℚ) := by exact_mod_cast divisor
  exact ⟨least, Nat.cast_le.mpr clamp, greatest, divides⟩

/-- The floor in force is not below that of the site. -/
theorem Unhurried.floor (gentle : site.floorMs ≤ 5000) (unhurried : Unhurried site timed) :
    (site.floorMs : ℚ) ≤ timed.page.policy.floorMs := by
  rcases unhurried.policy with own | ⟨published, there, taken⟩
  · have floor : timed.page.policy.floorMs = ((5000 : ℕ) : ℚ) := by rw [own]; norm_num
    rw [floor]
    exact Nat.cast_le.mpr gentle
  · rw [taken, Site.floorMs, there]
    exact le_rfl

theorem Unhurried.inBounds (unhurried : Unhurried site timed) : timed.page.policy.InBounds := by
  rcases unhurried.policy with own | ⟨published, there, taken⟩
  · rw [own]
    exact ⟨by norm_num, le_rfl, by norm_num, le_rfl⟩
  · obtain ⟨-, -, -, sane⟩ := parsePollPolicy_eq_some.mp there
    rw [taken]
    exact ofPublished_inBounds sane

theorem Unhurried.of_same (unhurried : Unhurried site timed)
    (policy : timed'.page.policy = timed.page.policy) (interval : timed'.nextIntervalMs = timed.nextIntervalMs)
    (alarms : timed'.alarms = timed.alarms) (fetches : timed'.fetches = timed.fetches) :
    Unhurried site timed' := by
  obtain ⟨q, finite, least⟩ := unhurried.timely
  exact ⟨policy ▸ unhurried.policy, ⟨q, interval.trans finite, policy ▸ least⟩, alarms ▸ unhurried.alarms,
    fetches ▸ unhurried.fetches⟩

/-- What calm work needs is steady. -/
theorem unhurried_steady (timed : Timed) : Steady fun page => Unhurried site { timed with page := page } where
  same same unhurried := unhurried.of_same (Prod.mk.inj same).1 rfl rfl rfl
  stop unhurried := unhurried.of_same (policy_clearTimer _) rfl rfl rfl

theorem onPage_unhurried {work : Work α} (calm : Calm work) :
    Script.Meets (Unhurried site) (onPage work) (fun _ => Unhurried site) (Unhurried site) :=
  .within (fun _ => rfl) fun timed => calm _ (unhurried_steady timed)

theorem onPage_then {work : Work α} {next : α → TimedWork β} {after : β → Timed → Prop} (calm : Calm work)
    (rest : ∀ a, Script.Meets (Unhurried site) (next a) after (Unhurried site)) :
    Script.Meets (Unhurried site) (onPage work >>= next) after (Unhurried site) :=
  .bind (onPage_unhurried calm) rest

/-- A timer is set under the floor in force. -/
theorem Unhurried.setTimeout (gentle : site.floorMs ≤ 5000) (unhurried : Unhurried site timed) (delay : Number) :
    Unhurried site (timed.setTimeout delay) := by
  refine ⟨unhurried.policy, unhurried.timely, fun alarm member => ?_, unhurried.fetches⟩
  rcases List.mem_append.mp member with earlier | latest
  · exact unhurried.alarms alarm earlier
  · rw [List.mem_singleton.mp latest]
    exact unhurried.floor gentle

theorem Unhurried.schedule (gentle : site.floorMs ≤ 5000) (unhurried : Unhurried site timed) :
    Unhurried site (timed.schedule moment) := by
  have cleared : Unhurried site { timed with page := timed.page.clearTimer } :=
    unhurried.of_same (policy_clearTimer _) rfl rfl rfl
  rw [Timed.schedule]
  split_ifs
  · exact unhurried
  · exact cleared.of_same rfl rfl rfl rfl
  · have wanted : Unhurried site
        { timed with page := { timed.page.clearTimer with catchUpWanted := false } } :=
      cleared.of_same rfl rfl rfl rfl
    exact wanted.setTimeout gentle _
  · exact cleared.setTimeout gentle _

/-- An interval that suits the policy in force. -/
theorem Unhurried.sets {interval : Number} (suits : Suits timed.page.policy interval)
    (unhurried : Unhurried site timed) : Unhurried site { timed with nextIntervalMs := interval } := by
  obtain ⟨q, finite, least, -⟩ := suits
  exact ⟨unhurried.policy, ⟨q, finite, least⟩, unhurried.alarms, unhurried.fetches⟩

theorem Unhurried.atFloor (unhurried : Unhurried site timed) : Unhurried site timed.atFloor :=
  unhurried.sets (suits_floor unhurried.inBounds)

theorem Unhurried.atCeiling (unhurried : Unhurried site timed) : Unhurried site timed.atCeiling :=
  unhurried.sets (suits_ceiling unhurried.inBounds)

theorem Unhurried.atPosition {s : JsValue} (unhurried : Unhurried site timed) :
    Unhurried site (timed.atPosition moment s) := by
  simp only [Timed.atPosition]
  split_ifs
  · exact unhurried.atFloor
  · exact unhurried.sets (suits_intervalForPosition unhurried.inBounds _ _)

theorem Unhurried.atPause {s : JsValue} (unhurried : Unhurried site timed) :
    Unhurried site (timed.atPause moment s) := by
  rw [Timed.atPause]
  split
  · exact unhurried.atCeiling
  · exact unhurried.sets (suits_intervalForPosition unhurried.inBounds _ _)

/-- A document of the room takes no page below its floor. -/
theorem Unhurried.adopt (gentle : site.floorMs ≤ 5000) {s : JsValue} (document : DocumentOf site origin c s)
    (unhurried : Unhurried site timed) :
    Unhurried site { timed with page :=
      { timed.page with policy := adoptPolicy timed.page.policy (s.member "poll_policy") } } := by
  obtain ⟨old, now, -, rfl⟩ := document
  have published : (status (site.deployment.view old) site.pollPolicy now).pollPolicy = site.pollPolicy := rfl
  rw [pollPolicy_statusBody, published]
  cases policy : site.pollPolicy with
  | none => exact unhurried.of_same rfl rfl rfl rfl
  | some taken =>
      obtain ⟨-, -, -, sane⟩ := parsePollPolicy_eq_some.mp policy
      obtain ⟨q, finite, least⟩ := unhurried.timely
      have floor : (ofPublished taken).floorMs = site.floorMs := by rw [Site.floorMs, policy]; rfl
      rw [Option.map_some, Option.getD_some, adoptPolicy_of_sane sane]
      exact ⟨.inr ⟨taken, policy, rfl⟩, ⟨q, finite, floor.trans_le ((unhurried.floor gentle).trans least)⟩,
        unhurried.alarms, unhurried.fetches⟩

/-! ## What each answer leads to -/

section Scripts

variable (gentle : site.floorMs ≤ 5000)

include gentle

theorem scheduleNext_unhurried :
    Script.Meets (Unhurried site) (scheduleNext moment) (fun _ => Unhurried site) (Unhurried site) :=
  .update_step (fun _ unhurried => unhurried.schedule gentle) (.pure fun _ unhurried => unhurried)

theorem afterRedeem_unhurried :
    Script.Meets (Unhurried site) (afterRedeem moment) (fun _ => Unhurried site) (Unhurried site) :=
  onPage_then (.read _) fun _ =>
    .ite (fun _ => .pure fun _ unhurried => unhurried) fun _ => scheduleNext_unhurried gentle

theorem queueAnswered_unhurried {s body : JsValue} {status : ℕ} :
    Script.Meets (Unhurried site) (queueAnswered moment s status body) (fun _ => Unhurried site)
      (Unhurried site) := by
  refine .ite (fun _ => onPage_then (.update fun _ => rfl) fun _ => ?_) fun _ =>
    onPage_then (.update fun _ => rfl) fun _ => .ite (fun _ => .throw fun _ unhurried => unhurried) fun _ => ?_
  · refine .update_step (fun _ => Unhurried.atFloor)
      (onPage_then (.read _) fun misses => .ite (fun _ => ?_) fun _ => scheduleNext_unhurried gentle)
    refine onPage_then (.update fun _ => rfl) fun _ => onPage_then (.read _) fun cycles => ?_
    refine .ite (fun _ => onPage_then .stop fun _ => .pure fun _ unhurried => unhurried) fun _ => ?_
    exact onPage_then (.update fun _ => rfl) fun _ => scheduleNext_unhurried gentle
  · refine onPage_then (.ofExcept _) fun position => onPage_then (.update fun _ => rfl) fun _ => ?_
    refine onPage_then (.ofExcept _) fun _ => onPage_then (.ofExcept _) fun reached => .ite (fun _ => ?_) fun _ => ?_
    · exact .update_step (fun _ => Unhurried.atFloor) (onPage_unhurried redeem_calm)
    · refine onPage_then (.ofExcept _) fun _ => .update_step (fun _ => Unhurried.atPosition) ?_
      exact scheduleNext_unhurried gentle

theorem askNumber_unhurried {s : JsValue} :
    Script.Meets (Unhurried site) (askNumber moment s) (fun _ => Unhurried site) (Unhurried site) := by
  refine onPage_then (.read _) fun page => ?_
  cases page.knownPosition with
  | null =>
      refine .ite (fun _ => ?_) fun _ => .pure fun _ unhurried => unhurried
      exact .update_step (fun _ => Unhurried.atFloor) (scheduleNext_unhurried gentle)
  | _ => exact queueAnswered_unhurried gentle

theorem afterJoin_unhurried {next : AfterJoin} :
    Script.Meets (Unhurried site) (afterJoin moment next) (fun _ => Unhurried site) (Unhurried site) := by
  cases next with
  | schedule => exact scheduleNext_unhurried gentle
  | ask s => exact askNumber_unhurried gentle

theorem joinThen_unhurried {next : AfterJoin} :
    Script.Meets (Unhurried site) (joinThen moment next) (fun _ => Unhurried site) (Unhurried site) := by
  refine onPage_then (join_calm next) fun promise => ?_
  cases promise with
  | none => exact afterJoin_unhurried gentle
  | some promise => exact .pure fun _ unhurried => unhurried

theorem statusAnswered_unhurried {status : ℕ} {s : JsValue}
    (told : status = 200 → DocumentOf site origin c s) :
    Script.Meets (Unhurried site) (statusAnswered moment status s) (fun _ => Unhurried site)
      (Unhurried site) := by
  refine .ite (fun _ => .throw fun _ unhurried => unhurried) fun ok => ?_
  refine onPage_then (.ofExcept _) fun message => onPage_then (.ofExcept _) fun _ => ?_
  refine onPage_then (.ofExcept _) fun _ => .update_step (fun _ unhurried => unhurried.of_same rfl rfl rfl rfl) ?_
  have adopts : Script.Meets (Unhurried site) (onPage (Script.update fun page =>
      { page with policy := adoptPolicy page.policy (s.member "poll_policy") }))
      (fun _ => Unhurried site) (Unhurried site) :=
    fun timed unhurried => unhurried.adopt gentle (told (not_not.mp ok))
  refine .bind adopts fun _ => onPage_then (.update fun _ => rfl) fun _ => onPage_then (.read _) fun eventId => ?_
  refine .ite (fun _ => .update_step (fun _ => Unhurried.atFloor) (scheduleNext_unhurried gentle)) fun _ =>
    .ite (fun _ => ?_) fun _ => .ite (fun _ => ?_) fun _ => .ite (fun _ => ?_) fun _ => ?_
  · refine onPage_then (.update fun _ => rfl) fun _ => .update_step (fun _ => Unhurried.atCeiling) ?_
    refine onPage_then (.ofExcept _) fun _ => .ite (fun _ => ?_) fun _ => scheduleNext_unhurried gentle
    exact joinThen_unhurried gentle
  · refine onPage_then (.ofExcept _) fun _ => .update_step (fun _ => Unhurried.atPause) ?_
    exact scheduleNext_unhurried gentle
  · exact onPage_then (.update fun _ => rfl) fun _ => .pure fun _ unhurried => unhurried
  · exact onPage_then (.update fun _ => rfl) fun _ => joinThen_unhurried gentle

/-- What is done with an answer of the room. -/
theorem resume_unhurried {promise : Awaiting} (serves : Serves site origin requestId c promise answer) :
    Script.Meets (Unhurried site) (resume moment answer promise) (fun _ => Unhurried site)
      (Unhurried site) := by
  cases promise with
  | status =>
      have returns : Script.Meets (Unhurried site) (onPage (getJSON moment answer))
          (fun result timed => Unhurried site timed ∧ ∃ response, answer = .resolved response ∧
            response.waf = false ∧ response.status = result.1 ∧ response.body = some result.2)
          (Unhurried site) := by
        refine .within (fun _ => rfl) fun timed => ?_
        have steady : Script.Meets (fun page => Unhurried site { timed with page := page })
            (getJSON moment answer) (fun _ page => Unhurried site { timed with page := page })
            (fun page => Unhurried site { timed with page := page }) := getJSON_calm _ (unhurried_steady timed)
        exact (steady.and getJSON_returns).mono (fun _ here => ⟨here, trivial⟩) (fun _ _ here => here)
          fun _ here => here.1
      refine .bind returns fun result timed here => ?_
      obtain ⟨unhurried, ⟨waf, status, body⟩, rfl, rfl, rfl, rfl⟩ := here
      exact statusAnswered_unhurried gentle (fun ok => document_of_served (ok ▸ serves)) timed unhurried
  | digest next =>
      cases answer with
      | rejected => exact onPage_then (.update fun _ => rfl) fun _ => .throw fun _ unhurried => unhurried
      | resolved response => exact onPage_then (.update fun _ => rfl) fun _ => .pure fun _ unhurried => unhurried
  | join next => exact onPage_then joinAnswered_calm fun _ => afterJoin_unhurried gentle
  | queueNum s => exact onPage_then getJSON_calm fun _ => queueAnswered_unhurried gentle
  | token =>
      have failed : Calm (tryCatch (postJSON moment answer) fun error => do
          Script.update tokenFailed
          throw error) := .tryCatch postJSON_calm fun error => .bind (.update fun _ => rfl) fun _ => .throw _
      refine onPage_then failed fun _ => onPage_then (tokenAnswered_calm _ _) fun _ => ?_
      exact afterRedeem_unhurried gentle

end Scripts

/-! ## Every run -/

theorem Unhurried.tick {floorMs : ℚ} (under : (site.floorMs : ℚ) ≤ floorMs) (unhurried : Unhurried site timed) :
    Unhurried site (timed.tick moment floorMs) := by
  have policy : (timed.page.tick moment).policy = timed.page.policy := by
    rw [State.tick]
    split_ifs <;> rfl
  obtain ⟨q, finite, least⟩ := unhurried.timely
  refine ⟨policy ▸ unhurried.policy, ⟨q, finite, policy ▸ least⟩, unhurried.alarms, fun fetch member => ?_⟩
  rw [Timed.tick] at member
  split_ifs at member
  · exact unhurried.fetches fetch member
  · rcases List.mem_cons.mp member with latest | earlier
    · exact latest ▸ under
    · exact unhurried.fetches fetch earlier

theorem Unhurried.visibilityChange (gentle : site.floorMs ≤ 5000) (unhurried : Unhurried site timed) :
    Unhurried site (timed.visibilityChange moment) := by
  have dropped : Unhurried site { timed with page := timed.page.dropTimer } :=
    unhurried.of_same (policy_clearTimer _) rfl rfl rfl
  rw [Timed.visibilityChange]
  split_ifs
  · exact unhurried
  · exact dropped
  · exact dropped.tick (unhurried.floor gentle)
  · exact dropped.setTimeout gentle _

/-- What is done with an answer of the room leaves the page as it should be. -/
theorem Unhurried.outcome (gentle : site.floorMs ≤ 5000) {chain : ℕ} {promise : Awaiting}
    (serves : Serves site origin requestId c promise answer) (unhurried : Unhurried site timed) :
    Unhurried site (timed.outcome moment answer chain promise).2 := by
  have ends : Script.Ends (fun _ => Unhurried site) (Unhurried site)
      (timed.outcome moment answer chain promise) :=
    resume_unhurried gentle serves _ (unhurried.of_same rfl rfl rfl rfl)
  generalize timed.outcome moment answer chain promise = outcome at ends ⊢
  rcases outcome with ⟨_ | _, later⟩
  · exact ends
  · exact ends

theorem Unhurried.conclude (gentle : site.floorMs ≤ 5000) {result : Except JsError Progress}
    (unhurried : Unhurried site timed) : Unhurried site (Timed.conclude moment (result, timed)) := by
  rcases result with error | promise | _
  · exact (unhurried.schedule gentle).of_same rfl rfl rfl rfl
  · exact unhurried.of_same rfl rfl rfl rfl
  · exact unhurried.of_same rfl rfl rfl rfl

/-- One event. -/
theorem Unhurried.step (gentle : site.floorMs ≤ 5000)
    (serves : Serves.Event site origin requestId c timed.page event) (unhurried : Unhurried site timed)
    (steps : Timed.step moment event timed = some timed') : Unhurried site timed' := by
  rw [Timed.step] at steps
  split_ifs at steps
  have clocked : Unhurried site { timed with clock := moment.now } := unhurried.of_same rfl rfl rfl rfl
  cases event with
  | fire handle =>
      rw [react] at steps
      split at steps
      · next alarm alarmed =>
        split_ifs at steps
        obtain rfl := Option.some.inj steps
        have fired : Unhurried site { timed with clock := moment.now, page :=
            { timed.page with timers := timed.page.timers.erase handle } } := clocked.of_same rfl rfl rfl rfl
        exact fired.tick (unhurried.alarms alarm (List.mem_of_getElem? alarmed))
      · cases steps
  | visibility hidden =>
      obtain rfl := Option.some.inj steps
      have shown : Unhurried site { timed with clock := moment.now, page :=
          { timed.page with hidden := hidden } } := clocked.of_same rfl rfl rfl rfl
      exact shown.visibilityChange gentle
  | settle chain answer =>
      obtain ⟨promise, chained, rfl⟩ := Option.map_eq_some_iff.mp steps
      exact (clocked.outcome gentle (serves chain answer rfl promise chained)).conclude gentle

/-- The floor of the policy in force is a whole number of milliseconds. -/
theorem Unhurried.whole (unhurried : Unhurried site timed) : Whole timed.page.policy.floorMs := by
  rcases unhurried.policy with own | ⟨published, -, taken⟩
  · exact ⟨5000, by rw [own]; norm_num⟩
  · exact ⟨published.floorMs, by rw [taken]; rfl⟩

end Unhurried

/-! ## Windows of time -/

end Timed

end WaitingRoom.Page
