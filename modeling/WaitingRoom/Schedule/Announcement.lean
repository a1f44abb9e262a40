import WaitingRoom.Schedule.StartTime

/-!
# An announced start and its schedule

While a start is announced, the schedule is armed for it (`AnnouncementArmed`). The order of the
action's two writes keeps that for a first start and for a clear. It does not when an announced
start is moved: the schedule is at the new instant before the announcement is
(`rescheduling_disarms`). A write keeps it exactly when a schedule write leaves the announced start
armed, and an announcement finds the schedule armed for it (`announcement_armed`); actions whose
two writes nothing comes between, and that move no announced start, make no other writes.
-/

set_option autoImplicit false

namespace WaitingRoom.Schedule

open Dynamo Concurrency

/-- The instant a schedule expression names in a zone. -/
abbrev Instants := String → String → Option ℕ

/-- The start the item announces. -/
def announced (state : StartState) : Option ℕ := num (state.counters.getD .empty) "starts_at"

/-- A schedule is enabled, at an instant. -/
def ArmedFor (instants : Instants) (schedule : GetScheduleOutput) (start : ℕ) : Prop :=
  schedule.state = some .enabled ∧ ∃ expression timezone,
    schedule.scheduleExpression = some expression ∧
      schedule.scheduleExpressionTimezone = some timezone ∧ instants expression timezone = some start

/-- Until the open has fired, the schedule is armed for the announced start. -/
def AnnouncementArmed (instants : Instants) (state : StartState) : Prop :=
  state.fired = false → ∀ start, announced state = some start → ArmedFor instants state.schedule start

/-- A configuration of the operators' actions. -/
abbrev StartRoom := Config StartStores StartState StartJob (Except ApplyError Unit)

/-- A logged request. -/
abbrev StartEntry := Entry StartStores StartState StartJob

/-- The answered requests of one action, latest first. -/
abbrev StartHistory := List (Exchange StartStores)

/-- A run of the actions. -/
abbrev StartRun (scheduler : Scheduler) (origin : StartState) (c : StartRoom) : Prop :=
  (startTimes scheduler).Reaches .free (.initial origin) c

/-- A write keeps the announced start armed: a schedule write arms it, and an announcement finds the
schedule armed for the start it announces. -/
structure KeepsArmed (instants : Instants) (entry : StartEntry) : Prop where
  schedule : ∀ input, entry.exchange.call = .updateSchedule input → entry.after.fired = false →
    entry.after.schedule ≠ entry.before.schedule →
    ∀ start, announced entry.before = some start → ArmedFor instants input.definition start
  announcement : ∀ start timezone audit,
    entry.exchange.call = .setStartsAt (some (start, timezone)) audit → entry.after.fired = false →
    entry.after.counters ≠ entry.before.counters → ArmedFor instants entry.before.schedule start

/-! ## What an action has done when it writes -/

/-- One answered request. -/
abbrev startAnswered (call : StartCall) (answer : Except StoreError (StartPayload call)) :
    Exchange StartStores :=
  ⟨call, answer⟩

/-- An empty field clears the start. -/
def StartJob.Clears (job : StartJob) : Prop := (trim job.input).isEmpty

/-- The start an action asks for. -/
def StartJob.Asks (scheduler : Scheduler) (job : StartJob) (start : StartTime) : Prop :=
  ¬ job.Clears ∧
    parseStartTime scheduler.zones job.input job.timezone job.now.epochSeconds = .ok start

/-- The schedule write of an action, after the schedule was read. -/
def Rewrites (scheduler : Scheduler) (start : Option (String × String)) (history older : StartHistory)
    (input : UpdateScheduleInput) : Prop :=
  ∃ current, history = startAnswered (.getSchedule scheduler.scheduleName) (.ok current) :: older ∧
    rewrite scheduler.scheduleName current start = .ok input

/-- What an action has done by the time it makes a request. -/
def startLegal (scheduler : Scheduler) (job : StartJob) (history : StartHistory) : StartCall → Prop
  | .setStartsAt (some (secs, timezone)) _ =>
      ∃ start input older oldest, job.Asks scheduler start ∧ secs = start.epochSecs ∧
        timezone = start.timezone ∧
        history = startAnswered (.updateSchedule input) (.ok ()) :: older ∧
        Rewrites scheduler (some (start.expression, start.timezone)) older oldest input
  | .updateSchedule input =>
      (∃ start older, job.Asks scheduler start ∧
        Rewrites scheduler (some (start.expression, start.timezone)) history older input) ∨
      ∃ older item audit oldest, job.Clears ∧ Rewrites scheduler none history older input ∧
        older = startAnswered (.setStartsAt none audit) (.ok (some item)) :: oldest
  | _ => True

section Conformance

variable {scheduler : Scheduler} {job : StartJob} {history : StartHistory}

/-- A schedule write that was answered without an error is the last answer. -/
theorem setStartTime_obeys {start : Option (String × String)}
    (lawful : ∀ older input, Rewrites scheduler start older history input →
      startLegal scheduler job older (.updateSchedule input)) :
    Obeys (startLegal scheduler job)
      (fun later => onResult (fun _ => ∃ input older, later =
        startAnswered (.updateSchedule input) (.ok ()) :: older ∧
          Rewrites scheduler start older history input) fun _ => True)
      history (setStartTime scheduler.scheduleName start) := by
  refine ⟨trivial, fun answer => ?_⟩
  cases answer with
  | error error => exact trivial
  | ok current =>
      dsimp only [Program.bind]
      cases rewritten : rewrite scheduler.scheduleName current start with
      | error error => exact trivial
      | ok input =>
          have rewrites : Rewrites scheduler start (startAnswered (.getSchedule scheduler.scheduleName)
              (.ok current) :: history) history input := ⟨current, rfl, rewritten⟩
          refine ⟨lawful _ _ rewrites, fun answer => ?_⟩
          cases answer with
          | error error => exact trivial
          | ok done => exact ⟨input, _, rfl, rewrites⟩

/-- An update of the announced start that was answered without an error is the last answer. -/
theorem setStartsAt_obeys {startsAt : Option (ℕ × String)} {audit : Audit}
    (lawful : startLegal scheduler job history (.setStartsAt startsAt audit)) :
    Obeys (startLegal scheduler job)
      (fun later => onResult (fun _ => ∃ item, later =
        startAnswered (.setStartsAt startsAt audit) (.ok (some item)) :: history) fun _ => True)
      history (setStartsAt startsAt audit) := by
  refine ⟨lawful, fun answer => ?_⟩
  rcases answer with error | (_ | item)
  · exact trivial
  · exact trivial
  · exact ⟨item, rfl⟩

theorem clearStart_obeys (clears : job.Clears) (actor : String) (now : ArrivalTime) :
    Obeys (startLegal scheduler job) (fun _ _ => True) history (clearStart scheduler actor now) := by
  have lawful : startLegal scheduler job history
      (.setStartsAt none ⟨.clearStartTime, actor, now⟩) := trivial
  refine (setStartsAt_obeys lawful).bind fun withdrawn result last => ?_
  cases result with
  | error error => exact trivial
  | ok done =>
      obtain ⟨item, rfl⟩ := last
      refine (setStartTime_obeys fun older input rewrites => ?_).bind fun later result _ => ?_
      · exact .inr ⟨_, item, _, history, clears, rewrites, rfl⟩
      · cases result <;> exact trivial

theorem announceStart_obeys {start : StartTime} (asks : job.Asks scheduler start) (actor : String)
    (now : ArrivalTime) :
    Obeys (startLegal scheduler job) (fun _ _ => True) history
      (announceStart scheduler start actor now) := by
  refine (setStartTime_obeys fun older input rewrites => .inl ⟨start, _, asks, rewrites⟩).bind
    fun armed result last => ?_
  cases result with
  | error error => exact trivial
  | ok done =>
      obtain ⟨input, older, rfl, rewrites⟩ := last
      have lawful : startLegal scheduler job
          (startAnswered (.updateSchedule input) (.ok ()) :: older)
          (.setStartsAt (some (start.epochSecs, start.timezone)) ⟨.setStartTime, actor, now⟩) :=
        ⟨start, input, older, history, asks, rfl, rfl, rfl, rewrites⟩
      refine (setStartsAt_obeys lawful).bind fun later result _ => ?_
      cases result <;> exact trivial

/-- **Every start-time action conforms, whatever the stores answer.** -/
theorem startTime_obeys (job : StartJob) :
    Obeys (startLegal scheduler job) (fun _ _ => True) [] ((startTimes scheduler).program job) := by
  refine ⟨trivial, fun answer => ?_⟩
  rcases answer with error | (_ | item)
  · exact trivial
  · exact trivial
  simp only [Program.pure_eq, Program.bind, Option.map_some]
  cases debounceCheck (controlStateOf item) job.now with
  | error error => exact trivial
  | ok done =>
      by_cases clears : (trim job.input).isEmpty
      · simp only [clears, if_true]
        exact clearStart_obeys clears job.actor job.now
      · simp only [clears]
        cases parsed : parseStartTime scheduler.zones job.input job.timezone job.now.epochSeconds with
        | error error => exact trivial
        | ok start => exact announceStart_obeys ⟨clears, parsed⟩ job.actor job.now

end Conformance

/-! ## What one request does to the stores -/

/-- A request leaves the stores alone or is performed; the schedule may have fired before it. -/
theorem respondStart_state {call : StartCall} {choice : StartChoice} {past : List StartState}
    {before after : StartState} {answer : Except StoreError (StartPayload call)}
    (responds : respondStart call choice past before = some (answer, after)) :
    ∃ fired, (before.fired = true → fired = true) ∧
      (after = { before with fired := fired } ∨
        after = (performStart call { before with fired := fired }).2) := by
  induction choice generalizing before with
  | commit =>
      refine ⟨before.fired, id, .inr ?_⟩
      exact (congrArg Prod.snd (Option.some.inj responds)).symm
  | lost error =>
      refine ⟨before.fired, id, .inl ?_⟩
      exact (congrArg Prod.snd (Option.some.inj responds)).symm
  | landed error =>
      refine ⟨before.fired, id, .inr ?_⟩
      exact (congrArg Prod.snd (Option.some.inj responds)).symm
  | stale age =>
      refine ⟨before.fired, id, .inl ?_⟩
      cases call with
      | getItem | getSchedule _ =>
          obtain ⟨old, -, same⟩ := Option.map_eq_some_iff.mp responds
          exact (congrArg Prod.snd same).symm
      | setStartsAt _ _ | updateSchedule _ => cases responds
  | fires choice ih =>
      rw [respondStart] at responds
      split_ifs at responds
      obtain ⟨fired, grows, after⟩ := ih responds
      exact ⟨fired, fun _ => grows rfl, after⟩

/-- A request that writes one of the stores. -/
def IsWrite : StartCall → Prop
  | .setStartsAt _ _ | .updateSchedule _ => True
  | .getItem | .getSchedule _ => False

/-- A write that was answered without an error was performed. -/
theorem respondStart_ok {call : StartCall} {choice : StartChoice} {past : List StartState}
    {before after : StartState} {payload : StartPayload call}
    (writes : IsWrite call)
    (responds : respondStart call choice past before = some (.ok payload, after)) :
    ∃ fired, performStart call { before with fired := fired } = (.ok payload, after) := by
  induction choice generalizing before with
  | commit => exact ⟨before.fired, Option.some.inj responds⟩
  | lost error | landed error => cases congrArg Prod.fst (Option.some.inj responds)
  | stale age =>
      cases call with
      | getItem | getSchedule _ => exact writes.elim
      | setStartsAt _ _ | updateSchedule _ => cases responds
  | fires choice ih =>
      rw [respondStart] at responds
      split_ifs at responds
      obtain ⟨fired, performed⟩ := ih responds
      exact ⟨fired, performed⟩

/-- The log of a run, in which every request was legal. -/
abbrev StartTrace (scheduler : Scheduler) (origin : StartState) (log : List StartEntry)
    (state : StartState) : Prop :=
  Trace (startTimes scheduler) .free (startLegal scheduler) origin log state

/-- One logged request, and the log below it. -/
structure StartLogged (scheduler : Scheduler) (origin : StartState) (older : List StartEntry)
    (entry : StartEntry) : Prop where
  earlier : StartTrace scheduler origin older entry.before
  lawful : startLegal scheduler entry.job (history older entry.thread) entry.exchange.call
  responds : ∃ choice, respondStart entry.exchange.call choice (past older) entry.before =
    some (entry.exchange.answer, entry.after)

/-- What a request did to the item and the schedule. -/
inductive StartEffect (entry : StartEntry) : Prop where
  | none (counters : entry.after.counters = entry.before.counters)
      (schedule : entry.after.schedule = entry.before.schedule)
  | schedule (input : UpdateScheduleInput) (call : entry.exchange.call = .updateSchedule input)
      (counters : entry.after.counters = entry.before.counters)
      (schedule : entry.after.schedule = input.definition)
  | item (startsAt : Option (ℕ × String)) (audit : Audit) (item : Item)
      (call : entry.exchange.call = .setStartsAt startsAt audit)
      (counters : entry.after.counters = some item)
      (schedule : entry.after.schedule = entry.before.schedule)
      (updated : Dynamo.updateItem entry.before.counters (debouncePredicate audit.now)
        (startsAtClauses startsAt audit) = .updated item)

section Logged

variable {scheduler : Scheduler} {origin state : StartState} {log newer older : List StartEntry}
  {entry : StartEntry}

theorem StartTrace.logged_head (trace : StartTrace scheduler origin (entry :: older) state) :
    StartLogged scheduler origin older entry ∧ entry.after = state := by
  cases trace with
  | cons earlier lawful allowed responds => exact ⟨⟨earlier, lawful, _, responds⟩, rfl⟩

theorem StartTrace.logged (trace : StartTrace scheduler origin (newer ++ entry :: older) state) :
    StartLogged scheduler origin older entry := by
  obtain ⟨earlier, lawful, choice, -, responds⟩ := Trace.split trace
  exact ⟨earlier, lawful, choice, responds⟩

/-- **What a request does**: it never takes the firing back, and writes at most one of the stores. -/
theorem StartLogged.effect (logged : StartLogged scheduler origin older entry) :
    (entry.before.fired = true → entry.after.fired = true) ∧ StartEffect entry := by
  obtain ⟨choice, responds⟩ := logged.responds
  obtain ⟨fired, grows, after⟩ := respondStart_state responds
  rcases after with same | after
  · rw [same]
    exact ⟨grows, .none (by rw [same]) (by rw [same])⟩
  cases call : entry.exchange.call with
  | getItem | getSchedule _ =>
      rw [call] at after
      exact ⟨by rw [after]; exact grows, .none (by rw [after]; rfl) (by rw [after]; rfl)⟩
  | updateSchedule input =>
      rw [call] at after
      exact ⟨by rw [after]; exact grows, .schedule input call (by rw [after]; rfl) (by rw [after]; rfl)⟩
  | setStartsAt startsAt audit =>
      rw [call, performStart] at after
      split at after
      · rename_i item updated
        exact ⟨by rw [after]; exact grows,
          .item startsAt audit item call (by rw [after]) (by rw [after]) updated⟩
      · exact ⟨by rw [after]; exact grows, .none (by rw [after]) (by rw [after])⟩
      · exact ⟨by rw [after]; exact grows, .none (by rw [after]) (by rw [after])⟩

/-- An update that was answered with an item wrote it. -/
theorem StartLogged.wrote_item (logged : StartLogged scheduler origin older entry)
    {startsAt : Option (ℕ × String)} {audit : Audit} {item : Item}
    (exchange : entry.exchange = startAnswered (.setStartsAt startsAt audit) (.ok (some item))) :
    entry.after.counters = some item ∧ Dynamo.updateItem entry.before.counters
      (debouncePredicate audit.now) (startsAtClauses startsAt audit) = .updated item := by
  obtain ⟨choice, responds⟩ := logged.responds
  rw [exchange] at responds
  have answered : respondStart (.setStartsAt startsAt audit) choice (past older) entry.before =
    some (.ok (some item), entry.after) := responds
  have write : IsWrite (.setStartsAt startsAt audit) := trivial
  obtain ⟨fired, performed⟩ := respondStart_ok write answered
  rw [performStart] at performed
  split at performed
  · rename_i found updated
    obtain ⟨answer, after⟩ := Prod.mk.inj performed
    obtain rfl : found = item := Option.some.inj (Except.ok.inj answer)
    exact ⟨by rw [← after], updated⟩
  · cases Except.ok.inj (Prod.mk.inj performed).1
  · cases (Prod.mk.inj performed).1

/-- A schedule write that was answered without an error was made. -/
theorem StartLogged.wrote_schedule (logged : StartLogged scheduler origin older entry)
    {input : UpdateScheduleInput}
    (exchange : entry.exchange = startAnswered (.updateSchedule input) (.ok ())) :
    entry.after.schedule = input.definition := by
  obtain ⟨choice, responds⟩ := logged.responds
  rw [exchange] at responds
  have answered : respondStart (.updateSchedule input) choice (past older) entry.before =
    some (.ok (), entry.after) := responds
  have write : IsWrite (.updateSchedule input) := trivial
  obtain ⟨fired, performed⟩ := respondStart_ok write answered
  rw [← (Prod.mk.inj performed).2]

/-! ## What a request does to the announcement -/

/-- A parsed start fits its attribute. -/
theorem epochSecs_lt {zones : TimeZones} {input timezone : String} {nowSecs : ℕ} {start : StartTime}
    (parsed : parseStartTime zones input timezone nowSecs = .ok start) :
    start.epochSecs < u64Bound := by
  have fits : ∀ second : Int64, second.toInt.toNat < u64Bound := by
    intro second
    have bound := Int64.toInt_lt second
    have wide : (2 : ℤ) ^ 63 ≤ (u64Bound : ℤ) := by decide
    omega
  simp only [parseStartTime] at parsed
  split_ifs at parsed
  split at parsed
  · cases parsed
  split at parsed
  · cases parsed
  split at parsed
  · cases parsed
  · rename_i resolved second _
    split_ifs at parsed
    obtain rfl := Except.ok.inj parsed
    exact fits second

/-- The announcement of an updated item. -/
theorem num_startsAt {stored : Option Item} {startsAt : Option (ℕ × String)} {audit : Audit}
    {item : Item} (updated : Dynamo.updateItem stored (debouncePredicate audit.now)
      (startsAtClauses startsAt audit) = .updated item) :
    (startsAt = none → num item "starts_at" = none) ∧
      ∀ secs timezone, startsAt = some (secs, timezone) → secs < u64Bound →
        num item "starts_at" = some secs := by
  constructor
  · rintro rfl
    rw [num, updateItem_remove [] updated (by simp [CountersUpdate.auditClauses, Clause.attr]),
      Option.bind_none]
  · rintro secs timezone rfl inside
    rw [num, updateItem_set [] updated (by simp [CountersUpdate.auditClauses, Clause.attr]),
      Option.bind_some, AttributeValue.asUnsigned_natCast inside]

/-- What is announced after an update of the item. -/
theorem StartLogged.announced_after (logged : StartLogged scheduler origin older entry)
    {startsAt : Option (ℕ × String)} {audit : Audit} {item : Item}
    (call : entry.exchange.call = .setStartsAt startsAt audit)
    (counters : entry.after.counters = some item)
    (updated : Dynamo.updateItem entry.before.counters (debouncePredicate audit.now)
      (startsAtClauses startsAt audit) = .updated item) :
    announced entry.after = startsAt.map Prod.fst := by
  have lawful := logged.lawful
  rw [call] at lawful
  rw [announced, counters, Option.getD_some]
  rcases startsAt with _ | ⟨secs, timezone⟩
  · exact (num_startsAt updated).1 rfl
  · obtain ⟨start, input, later, oldest, ⟨-, parsed⟩, rfl, -⟩ := lawful
    exact (num_startsAt updated).2 _ timezone rfl (epochSecs_lt parsed)

/-- **A request keeps the announced start armed exactly when it meets the condition.** -/
theorem StartLogged.armed_iff {instants : Instants} (logged : StartLogged scheduler origin older entry)
    (armed : AnnouncementArmed instants entry.before) :
    AnnouncementArmed instants entry.after ↔ KeepsArmed instants entry := by
  obtain ⟨grows, effect⟩ := logged.effect
  -- a start that had not fired after the request had not fired before it
  have earlier : entry.after.fired = false → entry.before.fired = false := by
    intro later
    by_contra fired
    rw [grows (Bool.not_eq_false _ ▸ fired)] at later
    cases later
  cases effect with
  | none counters schedule =>
      have same : announced entry.after = announced entry.before := by
        rw [announced, counters, announced]
      refine ⟨fun _ => ⟨fun _ _ _ changed => absurd schedule changed,
        fun _ _ _ _ _ changed => absurd counters changed⟩, fun _ later start shown => ?_⟩
      rw [schedule]
      exact armed (earlier later) start (same ▸ shown)
  | schedule input call counters schedule =>
      have same : announced entry.after = announced entry.before := by
        rw [announced, counters, announced]
      constructor
      · intro kept
        refine ⟨fun other call' later changed start shown => ?_,
          fun _ _ _ call' _ _ => nomatch call.symm.trans call'⟩
        obtain rfl : input = other := by simpa [call] using call'
        rw [← schedule]
        exact kept later start (same ▸ shown)
      · intro keeps later start shown
        rw [same] at shown
        by_cases changed : entry.after.schedule = entry.before.schedule
        · rw [changed]
          exact armed (earlier later) start shown
        · rw [schedule]
          exact keeps.schedule input call later changed start shown
  | item startsAt audit item call counters schedule updated =>
      have after := logged.announced_after call counters updated
      constructor
      · intro kept
        refine ⟨fun _ call' _ _ => (nomatch call.symm.trans call'),
          fun start timezone audit' call' later changed => ?_⟩
        obtain ⟨rfl, rfl⟩ : startsAt = some (start, timezone) ∧ audit = audit' := by
          simpa [call] using call'
        rw [← schedule]
        exact kept later start after
      · intro keeps later start shown
        rw [after] at shown
        rcases startsAt with _ | ⟨secs, timezone⟩
        · cases shown
        obtain rfl : secs = start := Option.some.inj shown
        rw [schedule]
        by_cases changed : entry.after.counters = entry.before.counters
        · exact armed (earlier later) secs (by rw [announced, ← changed]; exact after)
        · exact keeps.announcement secs timezone audit call later changed

/-- A trace of requests that keep the announced start armed keeps it armed, and no other does. -/
theorem StartTrace.armed_iff {instants : Instants} (trace : StartTrace scheduler origin log state)
    (armed : AnnouncementArmed instants origin) :
    (∀ entry ∈ log, KeepsArmed instants entry) ↔
      ∀ held ∈ state :: past log, AnnouncementArmed instants held := by
  induction log generalizing state with
  | nil =>
      cases trace
      simpa [past] using armed
  | cons entry older ih =>
      obtain ⟨logged, rfl⟩ := trace.logged_head
      have below := ih logged.earlier
      have held : past (entry :: older) = entry.before :: past older := rfl
      rw [List.forall_mem_cons, List.forall_mem_cons, held, below]
      constructor
      · rintro ⟨keeps, earlier⟩
        exact ⟨(logged.armed_iff (earlier _ List.mem_cons_self)).mpr keeps, earlier⟩
      · rintro ⟨after, earlier⟩
        exact ⟨(logged.armed_iff (earlier _ List.mem_cons_self)).mp after, earlier⟩

/-! ## Orderly runs -/

/-- The item and the schedule are the same. -/
structure SameStores (old new : StartState) : Prop where
  counters : new.counters = old.counters
  schedule : new.schedule = old.schedule

theorem SameStores.refl (state : StartState) : SameStores state state := ⟨rfl, rfl⟩

theorem SameStores.trans (first second third : StartState) (left : SameStores first second)
    (right : SameStores second third) : SameStores first third :=
  ⟨right.counters.trans left.counters, right.schedule.trans left.schedule⟩

/-- No announced start is moved, and between the two writes of an action no other is made. -/
structure Orderly (scheduler : Scheduler) (log : List StartEntry) : Prop where
  fresh : ∀ entry ∈ log, ∀ input start, entry.exchange.call = .updateSchedule input →
    entry.job.Asks scheduler start → ∀ shown, announced entry.before = some shown →
      shown = start.epochSecs
  alone : ∀ newer second between first older, log = newer ++ second :: (between ++ first :: older) →
    first.thread = second.thread → IsWrite first.exchange.call → ∀ entry ∈ between,
      entry.thread ≠ second.thread → SameStores entry.before entry.after

/-- The schedule fires at the instant the time zone database gives. -/
def Agree (zones : TimeZones) (instants : Instants) : Prop :=
  ∀ input timezone nowSecs start, parseStartTime zones input timezone nowSecs = .ok start →
    instants (atExpression start.expression) start.timezone = some start.epochSecs

/-- A schedule that was armed is. -/
theorem armedFor_of_rewrites {instants : Instants} {job : StartJob} {start : StartTime}
    {whole rest : StartHistory} {input : UpdateScheduleInput} (agree : Agree scheduler.zones instants)
    (asks : job.Asks scheduler start)
    (rewrites : Rewrites scheduler (some (start.expression, start.timezone)) whole rest input) :
    ArmedFor instants input.definition start.epochSecs := by
  obtain ⟨current, -, rewritten⟩ := rewrites
  rw [rewrite] at rewritten
  split at rewritten
  · cases rewritten
  · cases rewritten
  · obtain rfl := Except.ok.inj rewritten
    exact ⟨rfl, _, _, rfl, rfl, agree _ _ _ _ asks.2⟩

/-- Between an action's first write and its second, both stores stay as they were. -/
theorem StartTrace.unchanged {newer between older : List StartEntry} {second first : StartEntry}
    (trace : StartTrace scheduler origin (newer ++ second :: (between ++ first :: older)) state)
    (orderly : Orderly scheduler (newer ++ second :: (between ++ first :: older)))
    (same : first.thread = second.thread) (write : IsWrite first.exchange.call)
    (reads : ∀ exchange ∈ history between second.thread, ¬ IsWrite exchange.call) :
    SameStores first.after second.before := by
  have earlier : StartTrace scheduler origin (between ++ first :: older) second.before :=
    trace.logged.earlier
  have start : StartTrace scheduler origin (first :: older) first.after := by
    obtain ⟨before, suffix⟩ := Trace.suffix earlier
    rwa [Trace.after_of_split suffix]
  refine Trace.relates SameStores SameStores.refl SameStores.trans start earlier
    fun entry member => ?_
  by_cases mine : entry.thread = second.thread
  · -- its own request in between is a read
    have read : ¬ IsWrite entry.exchange.call :=
      reads _ (mem_history.mpr ⟨entry, member, mine, rfl⟩)
    obtain ⟨left, right, rfl⟩ := List.append_of_mem member
    rw [List.append_assoc, List.cons_append] at earlier
    cases earlier.logged.effect.2 with
    | none counters schedule => exact ⟨counters, schedule⟩
    | schedule input call counters schedule =>
        rw [call] at read
        exact absurd trivial read
    | item startsAt audit item call counters schedule updated =>
        rw [call] at read
        exact absurd trivial read
  · exact orderly.alone _ _ _ _ _ rfl same write entry member mine

/-- **Every request of an orderly run keeps the announced start armed.** -/
theorem StartTrace.keepsArmed {instants : Instants} (agree : Agree scheduler.zones instants)
    (trace : StartTrace scheduler origin log state) (orderly : Orderly scheduler log) :
    ∀ entry ∈ log, KeepsArmed instants entry := by
  intro entry member
  obtain ⟨newer, older, rfl⟩ := List.append_of_mem member
  have logged := trace.logged
  have lawful := logged.lawful
  constructor
  · intro input call later changed shown announces
    rw [call] at lawful
    rcases lawful with ⟨start, rest, asks, rewrites⟩ | ⟨rest, item, audit, oldest, -, rewrites, cleared⟩
    · rw [orderly.fresh entry member input start call asks shown announces]
      exact armedFor_of_rewrites agree asks rewrites
    · -- the announcement was withdrawn, and nothing was written since
      obtain ⟨current, whole, -⟩ := rewrites
      have split : history older entry.thread =
          [startAnswered (.getSchedule scheduler.scheduleName) (.ok current)] ++
            startAnswered (.setStartsAt none audit) (.ok (some item)) :: oldest := by
        rw [whole, cleared]
        rfl
      obtain ⟨between, first, oldLog, rfl, same, exchange, reads, -⟩ := exists_split_of_history split
      have unchanged := trace.unchanged orderly same (by rw [exchange]; trivial) (by
        intro other found
        rw [reads, List.mem_singleton] at found
        rw [found]
        exact id)
      have firstLogged : StartLogged scheduler origin oldLog first := logged.earlier.logged
      obtain ⟨counters, updated⟩ := firstLogged.wrote_item exchange
      have withdrawn := firstLogged.announced_after (by rw [exchange]) counters updated
      rw [announced, unchanged.counters] at announces
      cases withdrawn.symm.trans announces
  · intro secs timezone audit call later changed
    rw [call] at lawful
    obtain ⟨start, input, rest, oldest, asks, rfl, rfl, whole, rewrites⟩ := lawful
    -- the schedule was armed for it, and nothing was written since
    have split : history older entry.thread =
        [] ++ startAnswered (.updateSchedule input) (.ok ()) :: rest := whole
    obtain ⟨between, first, oldLog, rfl, same, exchange, reads, -⟩ := exists_split_of_history split
    have unchanged := trace.unchanged orderly same (by rw [exchange]; trivial) (by
      intro other found
      rw [reads] at found
      cases found)
    have firstLogged : StartLogged scheduler origin oldLog first := logged.earlier.logged
    rw [unchanged.schedule, firstLogged.wrote_schedule exchange]
    exact armedFor_of_rewrites agree asks rewrites

end Logged

/-- **An announced start is armed throughout a run exactly when every write keeps it armed**, and
every write of an orderly run does. -/
theorem announcement_armed (scheduler : Scheduler) (instants : Instants) (origin : StartState)
    (armed : AnnouncementArmed instants origin) (c : StartRoom) (run : StartRun scheduler origin c) :
    ((∀ entry ∈ c.log, KeepsArmed instants entry) ↔
      ∀ state ∈ c.state :: past c.log, AnnouncementArmed instants state) ∧
    (Agree scheduler.zones instants → Orderly scheduler c.log →
      ∀ state ∈ c.state :: past c.log, AnnouncementArmed instants state) := by
  have trace : StartTrace scheduler origin c.log c.state := System.Reaches.trace run startTime_obeys
  have kept := trace.armed_iff armed
  exact ⟨kept, fun agree orderly => kept.mp (trace.keepsArmed agree orderly)⟩

/-! ## A sample schedule -/

namespace Sample

/-- Two mornings in one zone. -/
def june : CivilTime := ⟨2030, 6, 15, 10, 0, 0, 0⟩

def july : CivilTime := ⟨2030, 7, 20, 9, 0, 0, 0⟩

/-- A database of one zone and these mornings. -/
def zones : TimeZones where
  known timezone := timezone = "UTC"
  civil text :=
    if text = "2030-06-15T10:00:00" then some june
    else if text = "2030-07-20T09:00:00" then some july
    else none
  compatible _ civil :=
    if civil = june then some (june, 1907748000)
    else if civil = july then some (july, 1910768400)
    else none

def scheduler : Scheduler := ⟨zones, "open"⟩

/-- The instants of the schedule. -/
def instants : Instants := fun expression timezone =>
  if timezone = "UTC" then
    if expression = "at(2030-06-15T10:00:00)" then some 1907748000
    else if expression = "at(2030-07-20T09:00:00)" then some 1910768400
    else none
  else none

/-- A schedule as it is created, and an event that announces no start. -/
def unscheduled : StartState where
  counters := some .empty
  schedule :=
    { groupName := some "default"
      scheduleExpression := some disabledPlaceholder
      scheduleExpressionTimezone := some "UTC"
      flexibleTimeWindow := some ⟨"OFF", none⟩
      state := some .disabled
      target := some ⟨"open_event", "open_scheduler", some "evt", some 600, some 10, none⟩
      description := none
      kmsKeyArn := none
      startDate := none
      endDate := none
      actionAfterCompletion := none }
  fired := false

theorem unscheduled_armed : AnnouncementArmed instants unscheduled := nofun

/-- A start in June, and ten seconds later one in July. -/
def inJune : StartJob := ⟨"2030-06-15T10:00", "UTC", "operator", ⟨0⟩⟩

def inJuly : StartJob := ⟨"2030-07-20T09:00", "UTC", "operator", ⟨10000000000⟩⟩

/-- A thread's next requests, none of which goes wrong. -/
def commits (thread requests : ℕ) : List (Action StartJob StartChoice) :=
  List.replicate requests (.advance thread .commit)

theorem zones_agree : Agree zones instants := by
  intro input timezone nowSecs start parsed
  simp only [parseStartTime] at parsed
  split_ifs at parsed with unknown
  have utc : timezone = "UTC" := by simpa [zones] using unknown
  split at parsed
  · cases parsed
  rename_i normalized _
  split at parsed
  · cases parsed
  rename_i civil read
  split at parsed
  · cases parsed
  rename_i resolved second resolves
  split_ifs at parsed
  obtain rfl := Except.ok.inj parsed
  simp only [zones] at read resolves
  split_ifs at read with first last
  · obtain rfl := Option.some.inj read
    rw [if_pos rfl] at resolves
    obtain ⟨-, rfl⟩ := Prod.mk.inj (Option.some.inj resolves)
    rw [instants, if_pos utc, first]
    rfl
  · obtain rfl := Option.some.inj read
    rw [if_neg (by decide), if_pos rfl] at resolves
    obtain ⟨-, rfl⟩ := Prod.mk.inj (Option.some.inj resolves)
    rw [instants, if_pos utc, last]
    rfl

end Sample

/-- A first start is announced, and armed throughout. -/
theorem announcement_armed_sample : ∃ c : StartRoom,
    StartRun Sample.scheduler Sample.unscheduled c ∧ announced c.state = some 1907748000 ∧
      (∀ entry ∈ c.log, KeepsArmed Sample.instants entry) ∧
      ∀ state ∈ c.state :: past c.log, AnnouncementArmed Sample.instants state := by
  obtain ⟨c, run, good⟩ := System.exists_reaches_of_run
    (show ((startTimes Sample.scheduler).run .free (.initial Sample.unscheduled)
      (.start Sample.inJune :: Sample.commits 0 4)).any
      (fun c => decide (announced c.state = some 1907748000) && c.log.all fun entry =>
        decide (entry.thread = 0) && match entry.exchange.call with
          | .updateSchedule _ => decide (announced entry.before = none)
          | _ => true) by
      decide +kernel)
  simp only [Bool.and_eq_true, decide_eq_true_eq, List.all_eq_true] at good
  obtain ⟨shown, entries⟩ := good
  have orderly : Orderly Sample.scheduler c.log := by
    constructor
    · intro entry member input start call _ shown announces
      have quiet := (entries entry member).2
      rw [call, decide_eq_true_eq] at quiet
      cases quiet.symm.trans announces
    · intro newer second between first older whole same write entry member other
      have here := (entries entry (by rw [whole]; simp [member])).1
      have there := (entries second (by rw [whole]; simp)).1
      exact absurd (here.trans there.symm) other
  have theorems := announcement_armed Sample.scheduler Sample.instants Sample.unscheduled
    Sample.unscheduled_armed c run
  have armed := theorems.2 Sample.zones_agree orderly
  exact ⟨c, run, shown, theorems.1.mpr armed, armed⟩

/-- **Moving an announced start disarms it**: the schedule is at the new start while the item still
announces the old one, and stays there if the second write never comes. -/
theorem rescheduling_disarms : ∃ c : StartRoom, StartRun Sample.scheduler Sample.unscheduled c ∧
    AnnouncementArmed Sample.instants Sample.unscheduled ∧ c.state.fired = false ∧
      announced c.state = some 1907748000 ∧ ¬ AnnouncementArmed Sample.instants c.state := by
  obtain ⟨c, run, good⟩ := System.exists_reaches_of_run
    (show ((startTimes Sample.scheduler).run .free (.initial Sample.unscheduled)
      (.start Sample.inJune :: Sample.commits 0 4 ++ .start Sample.inJuly :: Sample.commits 1 3)).any
      (fun c => decide (c.state.fired = false) && decide (announced c.state = some 1907748000) &&
        decide (c.state.schedule.scheduleExpression = some "at(2030-07-20T09:00:00)")) by
      decide +kernel)
  simp only [Bool.and_eq_true, decide_eq_true_eq] at good
  obtain ⟨⟨pending, shown⟩, moved⟩ := good
  refine ⟨c, run, Sample.unscheduled_armed, pending, shown, fun armed => ?_⟩
  obtain ⟨-, expression, timezone, found, -, instant⟩ := armed pending _ shown
  obtain rfl := Option.some.inj (moved.symm.trans found)
  simp only [Sample.instants] at instant
  split_ifs at instant <;> simp_all

end WaitingRoom.Schedule
