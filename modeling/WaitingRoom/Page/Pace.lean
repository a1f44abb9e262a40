import WaitingRoom.Page.Timed

/-!
# The pace of the polls

A timer is set for at least what is left of the floor since the last poll: for the remainder itself where
a poll was dropped or the page is shown again, and otherwise for the interval and its jitter, as long as
the interval is not below the floor (`Timed.Kept.schedule`). Every interval that is set is between the
bounds of the policy in force (`Timed.Kept.sets`). A poll that a timer makes, or that is made when the page
is shown, is then a floor away from the last one (`Timed.Kept.tick`, `Timed.Kept.visibilityChange`).
-/

set_option autoImplicit false

namespace WaitingRoom.Page

open Text Edge Concurrency

/-! ## Policies -/

/-- A policy in bounds. -/
structure Policy.InBounds (policy : Policy) : Prop where
  least : 1000 ≤ policy.floorMs
  ordered : policy.floorMs ≤ policy.ceilingMs
  greatest : policy.ceilingMs ≤ 300000
  divides : 1 ≤ policy.divisor

/-- A whole number of milliseconds. -/
def Whole (q : ℚ) : Prop := ∃ n : ℕ, q = n

theorem num_bounds {value : JsValue} {lo hi v : ℚ} (read : num value lo hi = some v) : lo ≤ v ∧ v ≤ hi := by
  unfold num at read
  split at read
  · split_ifs at read with bounds
    obtain rfl := Option.some.inj read
    exact bounds
  · cases read

theorem adoptPolicy_inBounds {policy : Policy} (bounds : policy.InBounds) (published : JsValue) :
    (adoptPolicy policy published).InBounds := by
  unfold adoptPolicy
  split
  · next floor ceiling divisor readFloor readCeiling readDivisor =>
    split_ifs with inverted
    · exact bounds
    · exact ⟨(num_bounds readFloor).1, le_of_not_gt inverted, (num_bounds readCeiling).2,
        (num_bounds readDivisor).1⟩
  · exact bounds

/-! ## What leaves the pace alone -/

/-- What the pace of the polls depends on. -/
def pace (page : State) : Policy × ℕ × ℕ × Option ℕ × List ℕ :=
  (page.policy, page.lastPollAt, page.nextHandle, page.timer, page.timers)

/-- A property that the pace decides, and that stopping does not end. -/
structure Steady (holds : State → Prop) : Prop where
  same : ∀ {page page' : State}, pace page' = pace page → holds page → holds page'
  stop : ∀ {page : State}, holds page → holds page.stop

/-- Work that ends no steady property. -/
def Calm {α : Type} (work : Work α) : Prop :=
  ∀ holds : State → Prop, Steady holds → Script.Meets holds work (fun _ => holds) holds

namespace Calm

variable {α β : Type}

theorem pure (a : α) : Calm (Pure.pure a : Work α) := fun _ _ => .pure fun _ here => here

theorem throw (error : JsError) : Calm (MonadExcept.throw error : Work α) :=
  fun _ _ => .throw fun _ here => here

theorem ofExcept (result : Except JsError α) : Calm (Script.ofExcept result) :=
  fun _ _ => .ofExcept (fun _ _ _ here => here) fun _ _ _ here => here

theorem read (view : State → α) : Calm (Script.read view) := fun _ _ => .read fun _ here => here

theorem update {change : State → State} (same : ∀ page, pace (change page) = pace page) :
    Calm (Script.update change) := fun _ steady => .update fun page => steady.same (same page)

theorem stop : Calm (Script.update State.stop) := fun _ steady => .update fun _ => steady.stop

theorem bind {work : Work α} {next : α → Work β} (first : Calm work) (second : ∀ a, Calm (next a)) :
    Calm (work >>= next) := fun holds steady => .bind (first holds steady) fun a => second a holds steady

theorem ite {condition : Prop} [Decidable condition] {first second : Work α} (holds : Calm first)
    (fails : Calm second) : Calm (if condition then first else second) :=
  fun _ steady => .ite (fun _ => holds _ steady) fun _ => fails _ steady

theorem tryCatch {work : Work α} {handler : JsError → Work α} (first : Calm work)
    (second : ∀ error, Calm (handler error)) : Calm (MonadExcept.tryCatch work handler) :=
  fun holds steady => .tryCatch (first holds steady) fun error => second error holds steady

end Calm

section Calm

variable {moment : Moment} {answer : Answer}

theorem renewWafToken_calm : Calm (renewWafToken moment) := by
  refine .bind .stop fun _ => .bind (.read _) fun mark => ?_
  cases mark with
  | none => exact .update fun _ => rfl
  | some last => exact .ite (.pure ()) (.update fun _ => rfl)

theorem checkWaf_calm : Calm (checkWaf moment answer) := by
  cases answer with
  | rejected => exact .throw _
  | resolved response => exact .ite (.bind renewWafToken_calm fun _ => .throw _) (.pure _)

theorem getJSON_calm : Calm (getJSON moment answer) := by
  refine .bind checkWaf_calm fun response => ?_
  cases response.body with
  | none => exact .throw _
  | some body => exact .pure _

theorem postJSON_calm : Calm (postJSON moment answer) := .bind checkWaf_calm fun _ => .pure _

theorem join_calm (next : AfterJoin) : Calm (join moment next) := by
  refine .bind (.read _) fun page => .ite (.bind (.update fun _ => rfl) fun _ => .pure _) (.ite (.pure _) ?_)
  refine .ite (.bind .stop fun _ => .pure _) (.ite (.bind .stop fun _ => .pure _) ?_)
  refine .bind (.update fun _ => rfl) fun _ => ?_
  cases page.digest with
  | none => exact .pure _
  | some made =>
      cases made with
      | true => exact .pure _
      | false => exact .throw _

theorem joinAnswered_calm : Calm (joinAnswered moment answer) :=
  .bind postJSON_calm fun _ => .ite (.update fun _ => rfl) (.update fun _ => rfl)

theorem redeem_calm : Calm redeem :=
  .bind (.read _) fun _ => .ite (.pure _) (.bind (.update fun _ => rfl) fun _ => .pure _)

theorem tokenAnswered_calm (status : ℕ) (body : JsValue) : Calm (tokenAnswered moment status body) := by
  refine .bind (.ofExcept _) fun _ => .ite ?_ ?_
  · exact .bind (.read _) fun _ => .ite .stop (.ite (.throw _) (.update fun _ => rfl))
  · exact .bind (.update fun _ => rfl) fun _ => .ite .stop (.pure _)

end Calm

namespace Timed

/-! ## Delays -/

/-- A timer waits for at least the whole milliseconds of its delay. -/
theorem le_timeoutMs {k : ℤ} {q : ℚ} (below : (k : ℚ) ≤ q) (small : q < 2 ^ 31) :
    k ≤ (timeoutMs (some (.finite q)) : ℤ) := by
  rcases lt_or_ge q 0 with negative | positive
  · have below_zero : k < 0 := by exact_mod_cast below.trans_lt negative
    omega
  · have whole : q.num.tdiv q.den = ⌊q⌋ := by
      rw [Rat.floor_def', Int.tdiv_eq_ediv_of_nonneg (Rat.num_nonneg.mpr positive)]
    have upper : ⌊q⌋ < 2 ^ 31 := Int.floor_lt.mpr (by exact_mod_cast small)
    have lower : 0 ≤ ⌊q⌋ := Int.floor_nonneg.mpr positive
    have least : k ≤ ⌊q⌋ := Int.le_floor.mpr below
    have fits : ⌊q⌋ % (2 ^ 32 : ℕ) = ⌊q⌋ := Int.emod_eq_of_lt lower (by omega)
    have kept : ⌊q⌋.bmod (2 ^ 32) = ⌊q⌋ := by
      rw [Int.bmod_eq_emod_of_lt, fits]
      rw [fits]
      omega
    rw [timeoutMs, whole, kept]
    omega

/-- An interval in milliseconds. -/
def Ranged (interval : Number) : Prop := ∃ q : ℚ, interval = some (.finite q) ∧ 0 ≤ q ∧ q ≤ 300000

/-- Jitter does not shorten an interval, but for a fraction of a millisecond. -/
theorem jitter_bounds {moment : Moment} (random : 0 ≤ moment.random ∧ moment.random < 1) {q : ℚ}
    (positive : 0 ≤ q) (bounded : q ≤ 300000) :
    ∃ k : ℤ, jitter moment (some (.finite q)) = some (.finite k) ∧ ⌊q⌋ ≤ k ∧ k < 2 ^ 31 := by
  refine ⟨⌊q * (1 + moment.random * (3 / 10)) + 1 / 2⌋, rfl, floor_le_rounded ?_, Int.floor_lt.mpr ?_⟩
  · exact le_mul_of_one_le_right positive (by linarith)
  · have spread : 1 + moment.random * (3 / 10) ≤ 13 / 10 := by linarith
    have longest : q * (1 + moment.random * (3 / 10)) ≤ 300000 * (13 / 10) :=
      mul_le_mul bounded spread (by linarith) (by norm_num)
    norm_num at longest ⊢
    linarith

/-! ## Intervals -/

/-- An interval between the bounds of a policy. -/
def Suits (policy : Policy) (interval : Number) : Prop :=
  ∃ q, interval = some (.finite q) ∧ policy.floorMs ≤ q ∧ q ≤ policy.ceilingMs

section Suits

variable {policy : Policy}

theorem suits_floor (bounds : policy.InBounds) : Suits policy (some (.finite policy.floorMs)) :=
  ⟨_, rfl, le_rfl, bounds.ordered⟩

theorem suits_ceiling (bounds : policy.InBounds) : Suits policy (some (.finite policy.ceilingMs)) :=
  ⟨_, rfl, bounds.ordered, le_rfl⟩

/-- What a wait is divided into is brought between the bounds. -/
theorem suits_intervalFor (bounds : policy.InBounds) (waitSeconds : Number) :
    Suits policy (intervalFor policy waitSeconds) := by
  rw [intervalFor]
  split_ifs with none
  · exact suits_floor bounds
  · have positive : above waitSeconds (some (.finite 0)) := by simpa using none
    have divisor_pos : 0 < policy.divisor := zero_lt_one.trans_le bounds.divides
    obtain ⟨value, shared⟩ := exists_dividedBy positive (by norm_num : (0 : ℚ) < 1000) divisor_pos
    rw [shared]
    exact clamp_bounds bounds.ordered value

theorem suits_intervalForPosition (bounds : policy.InBounds) (ahead rate : Number) :
    Suits policy (intervalForPosition policy ahead rate) := by
  rw [intervalForPosition]
  split_ifs
  · exact suits_intervalFor bounds _
  · exact suits_floor bounds

end Suits

/-! ## What every page keeps -/

/-- What the page measures is a number: its bounds, its interval, and every delay it has set. -/
structure Measured (timed : Timed) : Prop where
  policy : timed.page.policy.InBounds
  interval : Ranged timed.nextIntervalMs
  delays : ∀ alarm ∈ timed.alarms, ∃ q, alarm.delay = some (.finite q)

/-- The fetches are a floor apart, and so will the next one be that a timer makes. -/
structure Paced (timed : Timed) : Prop where
  whole : Whole timed.page.policy.floorMs
  handles : timed.alarms.length = timed.page.nextHandle
  timers : timed.page.timers = [] ∨ timed.page.timers = timed.page.timer.toList
  due : ∀ handle ∈ timed.page.timers, ∃ alarm, timed.alarms[handle]? = some alarm ∧
    (timed.page.lastPollAt : ℚ) + alarm.floorMs ≤ alarm.due
  past : timed.page.lastPollAt ≤ timed.clock
  latest : ∃ fetch earlier, timed.fetches = fetch :: earlier ∧ fetch.at_ = timed.page.lastPollAt
  spaced : timed.fetches.IsChain fun later earlier => (earlier.at_ : ℚ) + later.floorMs ≤ later.at_

/-- What is kept in every run, and what is kept in a run where the floor is held. -/
structure Kept (held : Prop) (timed : Timed) : Prop where
  measured : Measured timed
  paced : held → Paced timed

/-- The interval is not below the floor. -/
def Timely (timed : Timed) : Prop :=
  ∃ q, timed.nextIntervalMs = some (.finite q) ∧ timed.page.policy.floorMs ≤ q

/-- A page that keeps what it should, and, where the interval is set, may schedule it. -/
structure Primed (held set : Prop) (timed : Timed) : Prop where
  kept : Kept held timed
  timely : set → Timely timed

section Kept

variable {held : Prop} {timed : Timed}

theorem Measured.of_policy {page : State} (same : page.policy = timed.page.policy)
    (measured : Measured timed) : Measured { timed with page := page } :=
  ⟨same ▸ measured.policy, measured.interval, measured.delays⟩

theorem Timely.of_policy {page : State} (same : page.policy = timed.page.policy)
    (timely : Timely timed) : Timely { timed with page := page } := by
  obtain ⟨q, interval, above⟩ := timely
  exact ⟨q, interval, same ▸ above⟩

theorem Paced.of_pace {page : State} (same : pace page = pace timed.page) (paced : Paced timed) :
    Paced { timed with page := page } := by
  simp only [pace, Prod.mk.injEq] at same
  obtain ⟨policy, lastPollAt, nextHandle, timer, timers⟩ := same
  exact {
    whole := policy ▸ paced.whole
    handles := nextHandle ▸ paced.handles
    timers := timers ▸ timer ▸ paced.timers
    due := timers ▸ lastPollAt ▸ paced.due
    past := lastPollAt ▸ paced.past
    latest := lastPollAt ▸ paced.latest
    spaced := paced.spaced }

/-- Without timers, nothing is to be due. -/
theorem Paced.of_cleared {page : State} (policy : page.policy = timed.page.policy)
    (lastPollAt : page.lastPollAt = timed.page.lastPollAt) (nextHandle : page.nextHandle = timed.page.nextHandle)
    (cleared : page.timers = []) (paced : Paced timed) : Paced { timed with page := page } where
  whole := policy ▸ paced.whole
  handles := nextHandle ▸ paced.handles
  timers := .inl cleared
  due := by simp [cleared]
  past := lastPollAt ▸ paced.past
  latest := lastPollAt ▸ paced.latest
  spaced := paced.spaced

theorem policy_clearTimer (page : State) : page.clearTimer.policy = page.policy := by
  rw [State.clearTimer]
  split <;> rfl

/-- One timer at most is pending, and clearing it leaves none. -/
theorem clearTimer_eq {page : State} (single : page.timers = [] ∨ page.timers = page.timer.toList) :
    page.clearTimer = { page with timers := [] } := by
  rw [State.clearTimer]
  split
  · next handle set =>
    have empty : page.timers.erase handle = [] := by
      rcases single with none | one
      · simp [none]
      · simp [one, set]
    rw [empty]
  · next unset =>
    have empty : page.timers = [] := by simpa [unset] using single
    rw [← empty]

theorem Kept.clearTimer (kept : Kept held timed) :
    Kept held { timed with page := timed.page.clearTimer } := by
  refine ⟨kept.measured.of_policy (policy_clearTimer _), fun holding => ?_⟩
  have paced := kept.paced holding
  rw [clearTimer_eq paced.timers]
  exact paced.of_cleared rfl rfl rfl rfl

theorem Kept.dropTimer (kept : Kept held timed) :
    Kept held { timed with page := timed.page.dropTimer } := by
  refine ⟨kept.measured.of_policy (policy_clearTimer _), fun holding => ?_⟩
  have paced := kept.paced holding
  rw [State.dropTimer, clearTimer_eq paced.timers]
  exact paced.of_cleared rfl rfl rfl rfl

theorem Kept.of_pace {page : State} (same : pace page = pace timed.page) (kept : Kept held timed) :
    Kept held { timed with page := page } :=
  ⟨kept.measured.of_policy (Prod.mk.inj same).1, fun holding => (kept.paced holding).of_pace same⟩

theorem Kept.stop (kept : Kept held timed) : Kept held { timed with page := timed.page.stop } := by
  have stopped := kept.dropTimer.of_pace (by rfl : pace timed.page.stop = pace timed.page.dropTimer)
  exact stopped

/-- What a chain needs is steady. -/
theorem primed_steady {set : Prop} (timed : Timed) :
    Steady fun page => Primed held set { timed with page := page } where
  same := by
    intro page page' same primed
    have kept := primed.kept.of_pace same
    refine ⟨kept, fun isSet => ?_⟩
    have timely := (primed.timely isSet).of_policy (Prod.mk.inj same).1
    exact timely
  stop := by
    intro page primed
    have kept := primed.kept.stop
    refine ⟨kept, fun isSet => ?_⟩
    have timely := (primed.timely isSet).of_policy (policy_clearTimer page : page.stop.policy = page.policy)
    exact timely

/-! ## Setting timers -/

theorem Measured.setTimeout {q : ℚ} (measured : Measured timed) :
    Measured (timed.setTimeout (some (.finite q))) where
  policy := measured.policy
  interval := measured.interval
  delays := by
    intro alarm member
    rcases List.mem_append.mp member with earlier | latest
    · exact measured.delays alarm earlier
    · rw [List.mem_singleton.mp latest]
      exact ⟨q, rfl⟩

/-- A timer that waits for what is left of the floor, or longer, is due a floor after the last poll. -/
theorem Paced.setTimeout {q : ℚ} (paced : Paced timed) (cleared : timed.page.timers = [])
    (waits : timed.page.policy.floorMs - timed.sinceLastPoll ≤ q) (small : q < 2 ^ 31) :
    Paced (timed.setTimeout (some (.finite q))) where
  whole := paced.whole
  handles := by simp [Timed.setTimeout, State.setTimeout, paced.handles]
  timers := .inr (by simp [Timed.setTimeout, State.setTimeout, cleared])
  due := by
    intro handle member
    have latest : handle = timed.page.nextHandle := by
      simpa [Timed.setTimeout, State.setTimeout, cleared] using member
    refine ⟨⟨some (.finite q), timed.clock + timeoutMs (some (.finite q)), timed.page.policy.floorMs⟩,
      by simp [Timed.setTimeout, latest, ← paced.handles], ?_⟩
    obtain ⟨floor, whole⟩ := paced.whole
    have left : ((floor - (timed.clock - timed.page.lastPollAt : ℤ) : ℤ) : ℚ) ≤ q := by
      rw [sinceLastPoll, whole] at waits
      push_cast
      exact waits
    have waited := le_timeoutMs left small
    have due : timed.page.lastPollAt + floor ≤ timed.clock + timeoutMs (some (.finite q)) := by omega
    change (timed.page.lastPollAt : ℚ) + timed.page.policy.floorMs ≤ _
    rw [whole]
    exact_mod_cast due
  past := paced.past
  latest := paced.latest
  spaced := paced.spaced

theorem Paced.sinceLastPoll_nonneg (paced : Paced timed) : 0 ≤ timed.sinceLastPoll := by
  have past : (timed.page.lastPollAt : ℚ) ≤ timed.clock := by exact_mod_cast paced.past
  exact sub_nonneg.mpr past

theorem Kept.setTimeout {q : ℚ} (kept : Kept held timed) (cleared : held → timed.page.timers = [])
    (waits : held → timed.page.policy.floorMs - timed.sinceLastPoll ≤ q ∧ q < 2 ^ 31) :
    Kept held (timed.setTimeout (some (.finite q))) :=
  ⟨kept.measured.setTimeout, fun holding =>
    (kept.paced holding).setTimeout (cleared holding) (waits holding).1 (waits holding).2⟩

/-- **A poll that is scheduled keeps the floor**, unless it follows an interval below it. -/
theorem Kept.schedule {moment : Moment} (random : 0 ≤ moment.random ∧ moment.random < 1)
    (kept : Kept held timed)
    (timely : held → timed.page.stopped = false → timed.page.hidden = false →
      timed.page.catchUpWanted = false → Timely timed) : Kept held (timed.schedule moment) := by
  have empty (holding : held) : timed.page.clearTimer.timers = [] := by
    rw [clearTimer_eq (kept.paced holding).timers]
  have policy : timed.page.clearTimer.policy = timed.page.policy := policy_clearTimer _
  have since (holding : held) : timed.page.clearTimer.lastPollAt = timed.page.lastPollAt := by
    rw [clearTimer_eq (kept.paced holding).timers]
  have most : timed.page.policy.floorMs ≤ 300000 :=
    kept.measured.policy.ordered.trans kept.measured.policy.greatest
  rw [Timed.schedule]
  split_ifs with stopped hidden wanted
  · exact kept
  · have dropped := kept.dropTimer.of_pace (by rfl : pace { timed.page.clearTimer with
      catchUpWanted := false, timer := none } = pace timed.page.dropTimer)
    exact dropped
  · have cleared := kept.clearTimer.of_pace (by rfl : pace { timed.page.clearTimer with
      catchUpWanted := false } = pace timed.page.clearTimer)
    refine cleared.setTimeout empty fun holding => ⟨?_, ?_⟩
    · simp only [sinceLastPoll, policy, since holding]
      exact le_max_right _ _
    · have elapsed := (kept.paced holding).sinceLastPoll_nonneg
      refine max_lt (by norm_num) ?_
      linarith
  · obtain ⟨q, interval, positive, bounded⟩ := kept.measured.interval
    obtain ⟨k, jittered, above, small⟩ := jitter_bounds random positive bounded
    have delay : jitter moment timed.nextIntervalMs = some (.finite k) := by rw [interval, jittered]
    rw [delay]
    refine kept.clearTimer.setTimeout empty fun holding => ⟨?_, by exact_mod_cast small⟩
    have elapsed := (kept.paced holding).sinceLastPoll_nonneg
    obtain ⟨floor, whole⟩ := (kept.paced holding).whole
    obtain ⟨q', interval', least⟩ := timely holding (by simpa using stopped) (by simpa using hidden)
      (by simpa using wanted)
    obtain rfl : q = q' := by
      rw [interval] at interval'
      simpa using interval'
    have reached : (floor : ℤ) ≤ k := (Int.le_floor.mpr (by exact_mod_cast whole ▸ least)).trans above
    simp only [sinceLastPoll, policy, since holding] at elapsed ⊢
    have reached' : timed.page.policy.floorMs ≤ (k : ℚ) := by
      rw [whole]
      exact_mod_cast reached
    linarith

/-! ## Polls -/

/-- A poll that is a floor away from the last one keeps the floor. -/
theorem Kept.tick {moment : Moment} {floorMs : ℚ} (set : timed.clock = moment.now) (kept : Kept held timed)
    (cleared : held → timed.page.timers = [])
    (elapsed : held → (timed.page.lastPollAt : ℚ) + floorMs ≤ timed.clock) :
    Kept held (timed.tick moment floorMs) := by
  by_cases busy : timed.page.inFlight = true
  · have same : timed.tick moment floorMs =
        { timed with page := { timed.page with catchUpWanted := true } } := by
      simp [Timed.tick, State.tick, busy]
    rw [same]
    exact kept.of_pace rfl
  · have starts : timed.tick moment floorMs =
        { timed with
          page := { timed.page with
            inFlight := true, lastPollAt := moment.now, chains := timed.page.chains ++ [.status] }
          fetches := ⟨timed.clock, floorMs⟩ :: timed.fetches } := by
      simp [Timed.tick, State.tick, busy]
    rw [starts]
    refine ⟨⟨kept.measured.policy, kept.measured.interval, kept.measured.delays⟩, fun holding => ?_⟩
    have paced := kept.paced holding
    obtain ⟨fetch, earlier, fetches, last⟩ := paced.latest
    exact {
      whole := paced.whole
      handles := paced.handles
      timers := .inl (cleared holding)
      due := by simp [cleared holding]
      past := set.ge
      latest := ⟨_, _, rfl, set⟩
      spaced := by
        have spaced := paced.spaced
        rw [fetches] at spaced ⊢
        refine List.isChain_cons_cons.mpr ⟨?_, spaced⟩
        rw [last]
        exact elapsed holding }

theorem Kept.visibilityChange {moment : Moment} (set : timed.clock = moment.now) (kept : Kept held timed) :
    Kept held (timed.visibilityChange moment) := by
  have empty (holding : held) : timed.page.dropTimer.timers = [] := by
    rw [State.dropTimer, clearTimer_eq (kept.paced holding).timers]
  have policy : timed.page.dropTimer.policy = timed.page.policy := policy_clearTimer _
  have since (holding : held) : timed.page.dropTimer.lastPollAt = timed.page.lastPollAt := by
    rw [State.dropTimer, clearTimer_eq (kept.paced holding).timers]
  have most : timed.page.policy.floorMs ≤ 300000 :=
    kept.measured.policy.ordered.trans kept.measured.policy.greatest
  rw [Timed.visibilityChange]
  split_ifs with stopped hidden elapsed
  · exact kept
  · exact kept.dropTimer
  · refine kept.dropTimer.tick set empty fun holding => ?_
    rw [sinceLastPoll] at elapsed
    simp only [since holding]
    linarith
  · refine kept.dropTimer.setTimeout empty fun holding => ⟨?_, ?_⟩
    · simp only [sinceLastPoll, policy, since holding]
      exact le_rfl
    · have elapsed := (kept.paced holding).sinceLastPoll_nonneg
      linarith

/-! ## Setting the interval -/

theorem Kept.sets {interval : Number} (suits : Suits timed.page.policy interval) (kept : Kept held timed) :
    Primed held True { timed with nextIntervalMs := interval } := by
  obtain ⟨q, finite, least, greatest⟩ := suits
  have bounds := kept.measured.policy
  have ranged : Ranged interval :=
    ⟨q, finite, by linarith [bounds.least], greatest.trans bounds.greatest⟩
  refine ⟨⟨⟨bounds, ranged, kept.measured.delays⟩, fun holding => ?_⟩, fun _ => ⟨q, finite, least⟩⟩
  have paced := kept.paced holding
  exact ⟨paced.whole, paced.handles, paced.timers, paced.due, paced.past, paced.latest, paced.spaced⟩

theorem Kept.atFloor (kept : Kept held timed) : Primed held True timed.atFloor :=
  kept.sets (suits_floor kept.measured.policy)

theorem Kept.atCeiling (kept : Kept held timed) : Primed held True timed.atCeiling :=
  kept.sets (suits_ceiling kept.measured.policy)

theorem Kept.atPosition {moment : Moment} {s : JsValue} (kept : Kept held timed) :
    Primed held True (timed.atPosition moment s) := by
  simp only [Timed.atPosition]
  split_ifs
  · exact kept.atFloor
  · exact kept.sets (suits_intervalForPosition kept.measured.policy _ _)

theorem Kept.atPause {moment : Moment} {s : JsValue} (kept : Kept held timed) :
    Primed held True (timed.atPause moment s) := by
  rw [Timed.atPause]
  split
  · exact kept.atCeiling
  · exact kept.sets (suits_intervalForPosition kept.measured.policy _ _)

theorem Kept.observeCursor {moment : Moment} {serving : JsValue} (kept : Kept held timed) :
    Kept held (timed.observeCursor moment serving) := by
  refine ⟨⟨kept.measured.policy, kept.measured.interval, kept.measured.delays⟩, fun holding => ?_⟩
  have paced := kept.paced holding
  exact ⟨paced.whole, paced.handles, paced.timers, paced.due, paced.past, paced.latest, paced.spaced⟩

theorem adoptPolicy_whole {policy policy' : Policy} {published : JsValue} (whole : Whole policy.floorMs)
    (adopted : Whole (adoptPolicy policy' published).floorMs) :
    Whole (adoptPolicy policy published).floorMs := by
  unfold adoptPolicy at adopted ⊢
  split at adopted
  · split_ifs at adopted ⊢ with inverted
    · exact whole
    · exact adopted
  · exact whole

end Kept

end Timed

end WaitingRoom.Page
