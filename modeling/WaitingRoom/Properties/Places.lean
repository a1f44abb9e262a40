import WaitingRoom.Properties.Possession

/-!
# A visitor's place, once answered, stays

`/queue_num` answers from the pre-queue row first, an admission from the position row first. While
no join writes the second of an id's two rows, the two agree and neither changes (`OnePlace`), so
that every later reader finds the place that was once answered (`place_is_kept`). A join that is sent
again after the open writes that second row, and moves the visitor (`rejoin_moves_place`).
-/

set_option autoImplicit false

namespace WaitingRoom

open Dynamo Concurrency

/-- An id holds a counted pre-queue row and a position row. -/
def HoldsBoth (d : Deployment) (db : Db) (requestId : RequestId) : Prop :=
  (∃ position, OwnPosition d db requestId position) ∧ db.positions requestId ≠ none

/-- A join writes the second of an id's two rows. -/
def GivesSecondPlace (d : Deployment) (requestId : RequestId) (entry : RoomEntry) : Prop :=
  ((∃ write, entry.exchange.call = .putPrequeue write) ∨
      ∃ write, entry.exchange.call = .putPosition write) ∧
    ¬ HoldsBoth d entry.before requestId ∧ HoldsBoth d entry.after requestId

/-- The rows of an id agree on its place, and its position row never moved. -/
structure OnePlace (d : Deployment) (policy : RoomPolicy) (origin : Db) (requestId : RequestId)
    (log : List RoomEntry) (db : Db) : Prop where
  agrees : ∀ {position row}, OwnPosition d db requestId position →
    db.positions requestId = some row → row.queuePosition = position
  stays : ∀ {old oldRow row}, Held d policy origin log old → old.positions requestId = some oldRow →
    db.positions requestId = some row → row.queuePosition = oldRow.queuePosition

/-- An id is known to be at a place: its pre-queue row resolves to it, or a position row once had
it. -/
inductive KnownPlace (d : Deployment) (policy : RoomPolicy) (origin : Db) (requestId : RequestId)
    (log : List RoomEntry) (db : Db) (position : ℕ) : Prop where
  | own (own : OwnPosition d db requestId position)
  | row {old : Db} {row : PositionItem} (held : Held d policy origin log old)
      (found : old.positions requestId = some row) (same : row.queuePosition = position)

/-- The rows that an admission read resolve to a position. -/
def DecidesOn (d : Deployment) (history : History) (requestId : RequestId) (position : ℕ) : Prop :=
  ∃ item row prequeue, AdmissionReads history requestId item row prequeue ∧
    resolvePosition d.hmac (d.parse item) prequeue (row.map positionFromItem) = .ok position

section Places

variable {d : Deployment} {policy : RoomPolicy} {origin db : Db} {log older : List RoomEntry}
  {entry : RoomEntry} {requestId : RequestId} {position : ℕ}

/-! ## The invariant -/

/-- A row that a call left is the one there was before, or has its place. -/
theorem OnePlace.row_after (one : OnePlace d policy origin requestId older entry.before)
    (logged : Logged d policy origin older entry)
    (single : ¬ GivesSecondPlace d requestId entry) {row : PositionItem}
    (found : entry.after.positions requestId = some row) :
    (∀ {position}, OwnPosition d entry.before requestId position → row.queuePosition = position) ∧
      ∀ {old oldRow}, Held d policy origin older old → old.positions requestId = some oldRow →
        row.queuePosition = oldRow.queuePosition := by
  rcases logged.effect.positions_cases requestId with same | ⟨write, call, mine, absent, written⟩ |
    ⟨position, digest, row', call, admits, written⟩
  · rw [same] at found
    exact ⟨fun own => one.agrees own found, fun held oldFound => one.stays held oldFound found⟩
  · refine ⟨fun own => ?_, fun held oldFound => ?_⟩
    · refine absurd ⟨.inr ⟨write, call⟩, ?_, ⟨_, own.grows logged.grows⟩, ?_⟩ single
      · exact fun both => both.2 absent
      · rw [found]
        nofun
    · obtain ⟨still, stillFound, -⟩ := (held.grows logged.earlier).positions _ _ oldFound
      rw [absent] at stillFound
      cases stillFound
  · obtain rfl := Option.some.inj (written.symm.trans found)
    obtain ⟨placed, -, -⟩ := admitRow_eq_some admits
    rw [placed]
    rcases logged.claimed_position call with ⟨read, readRow, held, readFound, rfl, -⟩ | ⟨-, own, -⟩
    · -- the row that the admission read has the place of the one it updates
      obtain ⟨still, stillFound, -⟩ := (held.grows logged.earlier).positions _ _ readFound
      rw [← one.stays held readFound stillFound]
      exact ⟨fun own => one.agrees own stillFound,
        fun earlier oldFound => one.stays earlier oldFound stillFound⟩
    · refine ⟨fun own' => own.unique own', fun held oldFound => ?_⟩
      obtain ⟨still, stillFound, -⟩ := (held.grows logged.earlier).positions _ _ oldFound
      rw [← one.stays held oldFound stillFound]
      exact (one.agrees own stillFound).symm

/-- What an id owns after a call it owned before, when it already had a position row. -/
theorem Logged.own_before (logged : Logged d policy origin older entry) (seeded : Seeded origin)
    (single : ¬ GivesSecondPlace d requestId entry) (own : OwnPosition d entry.after requestId position)
    {row : PositionItem} (found : entry.before.positions requestId = some row) :
    OwnPosition d entry.before requestId position := by
  by_cases before : ∃ position, OwnPosition d entry.before requestId position
  · obtain ⟨position', own'⟩ := before
    rwa [own.unique (own'.grows logged.grows)]
  · exfalso
    obtain ⟨prequeue, stored, resolves⟩ := own
    rcases logged.effect.prequeue_cases requestId with same | ⟨write, call, -⟩
    · refine before ⟨position, prequeue, same ▸ stored, ?_⟩
      rw [← resolvePrequeue_of_grows logged.grows (logged.earlier.opened_of_row seeded found)]
      exact resolves
    · obtain ⟨row', found', -⟩ := logged.grows.positions _ _ found
      refine single ⟨.inl ⟨write, call⟩, fun both => before both.1, ⟨position, prequeue, stored, resolves⟩, ?_⟩
      rw [found']
      nofun

/-- **While no join gives an id a second place, its rows agree and stay.** -/
theorem RoomTrace.onePlace (trace : RoomTrace d policy origin log db) (seeded : Seeded origin)
    (single : ∀ entry ∈ log, ¬ GivesSecondPlace d requestId entry) :
    OnePlace d policy origin requestId log db := by
  revert single
  refine trace.rule (motive := fun log db => (∀ entry ∈ log, ¬ GivesSecondPlace d requestId entry) →
    OnePlace d policy origin requestId log db) ?_ ?_
  · refine fun _ => ⟨fun own => ?_, fun held found => ?_⟩
    · obtain ⟨row, found, -⟩ := own
      rw [seeded.prequeue requestId] at found
      cases found
    · obtain ⟨newer, oldest, whole, earlier⟩ := held
      obtain ⟨rfl, rfl⟩ := List.nil_eq_append_iff.mp whole
      obtain rfl := earlier.state_unique .nil
      rw [seeded.positions requestId] at found
      cases found
  · intro entry older logged before single
    have one := before [] older _ rfl logged.earlier fun earlier member =>
      single earlier (List.mem_cons_of_mem _ member)
    have here := single entry List.mem_cons_self
    refine ⟨fun {position row} own found => ?_, fun {old oldRow row} held oldFound found => ?_⟩
    · cases present : entry.before.positions requestId with
      | some beforeRow =>
          exact (one.row_after logged here found).1 (logged.own_before seeded here own present)
      | none =>
          rcases logged.effect.positions_cases requestId with same | ⟨write, call, -⟩ |
            ⟨position', digest, row', call, -⟩
          · rw [same, present] at found
            cases found
          · exact absurd ⟨.inr ⟨write, call⟩, fun both => both.2 present, ⟨position, own⟩, by
              rw [found]; nofun⟩ here
          · rcases logged.claimed_position call with ⟨read, readRow, readHeld, readFound, -⟩ | ⟨-, own', -⟩
            · obtain ⟨still, stillFound, -⟩ := (readHeld.grows logged.earlier).positions _ _ readFound
              rw [present] at stillFound
              cases stillFound
            · rw [own.unique (own'.grows logged.grows)]
              exact (one.row_after logged here found).1 own'
    · obtain ⟨newer, oldest, whole, earlier⟩ := held
      cases newer with
      | nil =>
          -- the state the call left
          obtain rfl := whole
          cases earlier with
          | cons earlier lawful allowed responds =>
              rw [Option.some.inj (found.symm.trans oldFound)]
      | cons first newer =>
          obtain ⟨rfl, rfl⟩ := List.cons_eq_cons.mp whole
          exact (one.row_after logged here found).2 ⟨newer, oldest, rfl, earlier⟩ oldFound

/-! ## What is known of a place -/

/-- A place that is known is one of an opened event. -/
theorem KnownPlace.opened (known : KnownPlace d policy origin requestId log db position)
    (seeded : Seeded origin) (trace : RoomTrace d policy origin log db) : db.Opened := by
  cases known with
  | own own => exact own.opened
  | row held found same =>
      obtain ⟨row, stored, -⟩ := (held.grows trace).positions _ _ found
      exact trace.opened_of_row seeded stored

/-- What is known of a place stays known. -/
theorem KnownPlace.mono {newer : List RoomEntry} {db' : Db}
    (known : KnownPlace d policy origin requestId older db position) (grows : db.Grows db') :
    KnownPlace d policy origin requestId (newer ++ older) db' position := by
  cases known with
  | own own => exact .own (own.grows grows)
  | row held found same => exact .row held.mono found same

/-- The position row of an id is at the place that is known. -/
theorem KnownPlace.row_eq (known : KnownPlace d policy origin requestId log db position)
    (one : OnePlace d policy origin requestId log db) {row : PositionItem}
    (found : db.positions requestId = some row) : row.queuePosition = position := by
  cases known with
  | own own => exact one.agrees own found
  | row held oldFound same => exact (one.stays held oldFound found).trans same

/-- The pre-queue row of an id resolves to the place that is known. -/
theorem KnownPlace.own_eq (known : KnownPlace d policy origin requestId log db position)
    (one : OnePlace d policy origin requestId log db) (trace : RoomTrace d policy origin log db)
    {other : ℕ} (own : OwnPosition d db requestId other) : other = position := by
  cases known with
  | own own' => exact own.unique own'
  | row held found same =>
      obtain ⟨row, stored, -⟩ := (held.grows trace).positions _ _ found
      rw [← one.agrees own stored, one.stays held found stored, same]

/-- An id that is known to be at a place, and has no position row later, owned it. -/
theorem KnownPlace.own_of_absent {db' : Db}
    (known : KnownPlace d policy origin requestId log db position)
    (trace : RoomTrace d policy origin log db) (grows : db.Grows db')
    (absent : db'.positions requestId = none) : OwnPosition d db requestId position := by
  cases known with
  | own own => exact own
  | row held found same =>
      obtain ⟨row, stored, -⟩ := ((held.grows trace).trans grows).positions _ _ found
      rw [absent] at stored
      cases stored

/-- An answered place is known. -/
theorem RoomTrace.known_of_queueNum (trace : RoomTrace d policy origin log db) {thread : ℕ}
    {live : Bool} (report : QueueNumReport d requestId (history log thread)
      (.ok (.position position live))) :
    KnownPlace d policy origin requestId log db position := by
  generalize answer : (.ok (.position position live) : Except StoreError QueueNumReply) = told at report
  cases report with
  | @counted item row place counters prequeue resolved =>
      obtain ⟨rfl, -⟩ := QueueNumReply.position.inj (Except.ok.inj answer)
      obtain ⟨read, held, rowFound⟩ := trace.read_prequeue prequeue
      obtain ⟨old, oldHeld, found⟩ := trace.read_counters counters
      have resolvedThen : (d.view old).resolvePrequeue d.hmac row = .ok (.preQueue position) := by
        rw [Deployment.view, found, Option.getD_some]
        exact queueNum_eq_preQueue.mp resolved
      refine .own ⟨row, (held.grows trace).prequeue requestId row rowFound, ?_⟩
      rw [resolvePrequeue_of_grows (oldHeld.grows trace) (opened_of_resolves resolvedThen),
        resolvedThen]
  | @elsewhere item prequeue row counters prequeueRead straggles positionRead =>
      cases row with
      | none => cases Except.ok.inj answer
      | some row =>
          obtain ⟨rfl, -⟩ := QueueNumReply.position.inj (Except.ok.inj answer)
          obtain ⟨old, held, found⟩ := trace.read_position positionRead
          exact .row held found rfl
  | _ => cases answer

/-- What a job reads later, it reads from a state in which the place is still known. -/
theorem KnownPlace.read {c later : Room} (known : KnownPlace d policy origin requestId c.log c.state position)
    (run : RoomRun d policy origin c) (goesOn : (room d).Reaches policy c later) {thread : ℕ}
    (reads : ReadsLater c later thread) (seeded : Seeded origin)
    (single : ∀ entry ∈ later.log, ¬ GivesSecondPlace d requestId entry) {call : Call}
    {payload : Payload call} (member : answered call (.ok payload) ∈ history later.log thread) :
    ∃ log db, RoomTrace d policy origin log db ∧ OnePlace d policy origin requestId log db ∧
      KnownPlace d policy origin requestId log db position ∧ c.state.Grows db ∧
      db.Grows later.state ∧ (perform call db).1 = .ok payload := by
  obtain ⟨newest, between, db, whole, trace, since, until_, performed⟩ := reads.read run goesOn member
  exact ⟨between ++ c.log, db, trace, trace.onePlace seeded fun entry inside =>
    single entry (by rw [whole]; exact List.mem_append_right _ inside), known.mono since, since,
    until_, performed⟩

end Places

/-! ## The readers -/

section Readers

variable {d : Deployment} {policy : RoomPolicy} {origin : Db} {c later : Room}
  {requestId : RequestId} {position thread : ℕ}

/-- **A later `/queue_num` answers the known place.** -/
theorem KnownPlace.queueNum
    (known : KnownPlace d policy origin requestId c.log c.state position)
    (run : RoomRun d policy origin c) (goesOn : (room d).Reaches policy c later)
    (reads : ReadsLater c later thread) (seeded : Seeded origin)
    (single : ∀ entry ∈ later.log, ¬ GivesSecondPlace d requestId entry) {reply : QueueNumReply}
    (report : QueueNumReport d requestId (history later.log thread) (.ok reply)) :
    ∃ live, reply = .position position live := by
  have later_trace := RoomRun.trace (System.Reaches.trans run goesOn)
  have grown := run.grows goesOn
  have opened := known.opened seeded run.trace
  -- the counters that the reader sees resolve a row as those of the last state do
  have resolves : ∀ {item}, answered (.getCounters false) (.ok (some item)) ∈ history later.log thread →
      ∀ row, (d.parse item).resolvePrequeue d.hmac row =
        (d.view later.state).resolvePrequeue d.hmac row := by
    intro item member row
    obtain ⟨log, db, -, -, -, since, until_, performed⟩ :=
      known.read run goesOn reads seeded single member
    have found : db.counters = some item := Except.ok.inj performed
    rw [resolvePrequeue_of_grows until_ (since.isOpened opened), Deployment.view, found,
      Option.getD_some]
  -- and the pre-queue row it sees is the stored one
  have stored : ∀ {prequeue}, answered (.getPrequeue requestId) (.ok prequeue) ∈
      history later.log thread → ∀ row, prequeue = some row → later.state.prequeue requestId = some row := by
    intro prequeue member row same
    obtain ⟨log, db, -, -, -, -, until_, performed⟩ :=
      known.read run goesOn reads seeded single member
    exact until_.prequeue requestId row ((Except.ok.inj performed).trans same)
  have resolved : ∀ {row}, later.state.prequeue requestId = some row →
      (∃ position, (d.view later.state).resolvePrequeue d.hmac row = .ok (.preQueue position)) ∨
        (d.view later.state).resolvePrequeue d.hmac row = .ok .liveJoin :=
    fun found => later_trace.resolves seeded (grown.isOpened opened) found
  generalize answer : (.ok reply : Except StoreError QueueNumReply) = told at report
  cases report with
  | failed error => cases answer
  | missing counters =>
      obtain ⟨log, db, trace, -, -, -, -, performed⟩ :=
        known.read run goesOn reads seeded single counters
      exact absurd (Except.ok.inj performed) (trace.exists_counters seeded)
  | @counted item row place counters prequeue resolved' =>
      obtain rfl := Except.ok.inj answer
      refine ⟨false, ?_⟩
      have own : OwnPosition d later.state requestId place :=
        ⟨row, stored prequeue row rfl, by
          rw [← resolves counters row]; exact queueNum_eq_preQueue.mp resolved'⟩
      have one := later_trace.onePlace seeded single
      obtain ⟨newer, whole, -⟩ := run.extend goesOn
      have still : KnownPlace d policy origin requestId later.log later.state position := by
        rw [whole]
        exact known.mono grown
      rw [still.own_eq one later_trace own]
  | @unopened item row counters prequeue resolved' =>
      rcases resolved (stored prequeue row rfl) with ⟨place, found⟩ | found
      · rw [← resolves counters row] at found
        rw [queueNum_eq_preQueue.mpr found] at resolved'
        cases resolved'
      · rw [← resolves counters row] at found
        rw [queueNum_eq_straggler.mpr found] at resolved'
        cases resolved'
  | @corrupt item row counters prequeue resolved' =>
      rcases resolved (stored prequeue row rfl) with ⟨place, found⟩ | found
      · rw [← resolves counters row] at found
        rw [queueNum_eq_preQueue.mpr found] at resolved'
        cases resolved'
      · rw [← resolves counters row] at found
        rw [queueNum_eq_straggler.mpr found] at resolved'
        cases resolved'
  | @elsewhere item prequeue row counters prequeueRead straggles positionRead =>
      obtain rfl := Except.ok.inj answer
      refine ⟨true, ?_⟩
      obtain ⟨log, db, -, one, known', since, -, performed⟩ :=
        known.read run goesOn reads seeded single positionRead
      have found : db.positions requestId = row := Except.ok.inj performed
      cases row with
      | some row => exact congrArg (QueueNumReply.position · true) (known'.row_eq one found)
      | none =>
          -- the counted row was there for the reader to see, and is no straggler
          obtain ⟨row, rowFound, rowResolves⟩ := known.own_of_absent run.trace since found
          obtain ⟨_, db', -, -, -, since', -, performed'⟩ :=
            known.read run goesOn reads seeded single prequeueRead
          have seen : db'.prequeue requestId = prequeue := Except.ok.inj performed'
          have straggling := straggles row (seen.symm.trans (since'.prequeue requestId row rowFound))
          rw [queueNum_eq_straggler, resolves counters row, resolvePrequeue_of_grows grown opened,
            rowResolves] at straggling
          cases Except.ok.inj straggling

/-- What a later admission reads resolves to the known place. -/
theorem KnownPlace.resolves_read
    (known : KnownPlace d policy origin requestId c.log c.state position)
    (run : RoomRun d policy origin c) (goesOn : (room d).Reaches policy c later)
    (reads : ReadsLater c later thread) (seeded : Seeded origin)
    (single : ∀ entry ∈ later.log, ¬ GivesSecondPlace d requestId entry) {item : Item}
    {row : Option PositionItem} {prequeue : Option PreQueueItem}
    (read : AdmissionReads (history later.log thread) requestId item row prequeue) :
    resolvePosition d.hmac (d.parse item) prequeue (row.map positionFromItem) = .ok position := by
  obtain ⟨log, db, trace, one, known', since, -, performed⟩ :=
    known.read run goesOn reads seeded single read.position
  have found : db.positions requestId = row := Except.ok.inj performed
  cases row with
  | some row =>
      rw [Option.map_some, resolvePosition_some]
      exact congrArg Except.ok (known'.row_eq one found)
  | none =>
      obtain ⟨row, rowFound, rowResolves⟩ := known.own_of_absent run.trace since found
      obtain ⟨_, db₁, -, -, -, since₁, -, performed₁⟩ :=
        known.read run goesOn reads seeded single (read.prequeue_read rfl)
      obtain ⟨_, db₂, -, -, -, since₂, -, performed₂⟩ :=
        known.read run goesOn reads seeded single read.counters
      have seen : db₁.prequeue requestId = prequeue := Except.ok.inj performed₁
      have counters : db₂.counters = some item := Except.ok.inj performed₂
      have resolved := resolvePrequeue_of_grows (d := d) since₂ (opened_of_resolves rowResolves) row
      rw [Deployment.view, counters, Option.getD_some, rowResolves] at resolved
      rw [since₁.prequeue requestId row rowFound] at seen
      rw [← seen, Option.map_none]
      simp only [resolvePosition, resolved]

/-- **A later admission decides on the known place.** -/
theorem KnownPlace.decides
    (known : KnownPlace d policy origin requestId c.log c.state position)
    (run : RoomRun d policy origin c) (goesOn : (room d).Reaches policy c later)
    (reads : ReadsLater c later thread) (seeded : Seeded origin)
    (single : ∀ entry ∈ later.log, ¬ GivesSecondPlace d requestId entry) {item : Item}
    {row : Option PositionItem} {prequeue : Option PreQueueItem}
    (read : AdmissionReads (history later.log thread) requestId item row prequeue) :
    DecidesOn d (history later.log thread) requestId position :=
  ⟨item, row, prequeue, read, known.resolves_read run goesOn reads seeded single read⟩

end Readers

/-- **A visitor's place, once answered, never changes and both readers agree on it** while no join
writes the second of the visitor's two rows. -/
theorem place_is_kept {d : Deployment} {origin : Db} (seeded : Seeded origin) {c later : Room}
    (run : RoomRun d .free origin c) (goesOn : (room d).Reaches .free c later)
    {requestId : RequestId} (single : ∀ entry ∈ later.log, ¬ GivesSecondPlace d requestId entry)
    {first position : ℕ} {live : Bool}
    (answered : c.threads[first]? =
      some ⟨.queueNum requestId, .done (.queueNum (.ok (.position position live)))⟩) :
    (∀ thread reply, ReadsLater c later thread → later.threads[thread]? =
        some ⟨.queueNum requestId, .done (.queueNum (.ok reply))⟩ →
      ∃ live', reply = .position position live') ∧
    ∀ thread secret viewerIp now draw admission, ReadsLater c later thread →
      later.threads[thread]? =
        some ⟨.generateToken requestId secret viewerIp now draw, .done (.admission (.ok admission))⟩ →
      DecidesOn d (history later.log thread) requestId position := by
  have whole := System.Reaches.trans run goesOn
  obtain ⟨result, same, report⟩ := run.report answered
  obtain rfl := Outcome.queueNum.inj same
  have known := run.trace.known_of_queueNum report
  refine ⟨fun thread reply reads returned => ?_,
    fun thread secret viewerIp now draw admission reads returned => ?_⟩
  · obtain ⟨result, same, report⟩ := RoomRun.report whole returned
    obtain rfl := Outcome.queueNum.inj same
    exact known.queueNum run goesOn reads seeded single report
  · obtain ⟨result, same, report⟩ := RoomRun.report whole returned
    obtain rfl := Outcome.admission.inj same
    cases admission with
    | admitted place expiresAt credential =>
        obtain ⟨-, grant, claim, claimed, -⟩ := report
        obtain ⟨item, row, prequeue, read, -⟩ := claimed.granted
        exact known.decides run goesOn reads seeded single read
    | refused denied =>
        obtain ⟨-, item, row, prequeue, read, -⟩ := report
        exact known.decides run goesOn reads seeded single read
    | eventNotFound =>
        obtain ⟨-, missing⟩ := report
        obtain ⟨log, db, trace, -, -, -, -, performed⟩ :=
          known.read run goesOn reads seeded single missing
        exact absurd (Except.ok.inj performed) (trace.exists_counters seeded)
    | signFailed =>
        obtain ⟨-, grant, claim, claimed⟩ := report
        obtain ⟨item, row, prequeue, read, -⟩ := claimed.granted
        exact known.decides run goesOn reads seeded single read

/-! ## Sample runs -/

/-- Alice was told a place that she holds in the cohort. -/
def toldAlice (c : Room) (thread position : ℕ) : Bool :=
  match c.result thread with
  | some (.queueNum requestId, .queueNum (.ok reply)) =>
      decide (requestId = Sample.alice ∧ reply = .position position false)
  | _ => false

theorem ended_of_toldAlice {c : Room} {thread position : ℕ} (told : toldAlice c thread position) :
    c.threads[thread]? =
      some ⟨.queueNum Sample.alice, .done (.queueNum (.ok (.position position false)))⟩ := by
  unfold toldAlice at told
  split at told
  · next ended =>
      obtain ⟨rfl, rfl⟩ := of_decide_eq_true told
      exact Config.result_eq_some.mp ended
  · cases told

/-- Every position row that the thread read is at the place. -/
def readsPlace (history : History) (position : ℕ) : Bool :=
  history.all fun exchange =>
    match exchange with
    | ⟨.getPosition _ _, .ok row⟩ => decide (row.map PositionItem.queuePosition = some position)
    | _ => true

theorem DecidesOn.eq_of_readsPlace {d : Deployment} {history : History} {requestId : RequestId}
    {position other : ℕ} (decides : DecidesOn d history requestId position)
    (reads : readsPlace history other) : position = other := by
  obtain ⟨item, row, prequeue, read, resolved⟩ := decides
  have placed := of_decide_eq_true (List.all_eq_true.mp reads _ read.position)
  obtain ⟨row, rfl, same⟩ := Option.map_eq_some_iff.mp placed
  rw [Option.map_some, resolvePosition_some] at resolved
  exact (Except.ok.inj resolved).symm.trans same

/-- A call after which the id has no position row. -/
def givesNoSecond (requestId : RequestId) (entry : RoomEntry) : Bool :=
  decide (entry.after.positions requestId = none)

theorem givesNoSecond_of_check {d : Deployment} {log : List RoomEntry} {requestId : RequestId}
    (checked : log.all (givesNoSecond requestId)) :
    ∀ entry ∈ log, ¬ GivesSecondPlace d requestId entry := by
  rintro entry member ⟨-, -, -, row⟩
  exact row (of_decide_eq_true (List.all_eq_true.mp checked entry member))

namespace Sample

/-- Alice asks for her place, then to be admitted. -/
def askPlace : List (Action Job Choice) := [.start (.queueNum alice)] ++ commits 2 2

/-- Alice's join is sent again. -/
def joinAgain : List (Action Job Choice) :=
  [.start (.joinBatch shard [⟨"m1", "alice"⟩])] ++ commits 3 3

end Sample

/-- Alice is told place 0, her join is sent again after the open, and the admission decides on
place 2. -/
theorem rejoin_moves_place : ∃ c later : Room, RoomRun Sample.deployment .free Sample.origin c ∧
    (room Sample.deployment).Reaches .free c later ∧
    c.threads[2]? = some ⟨.queueNum Sample.alice, .done (.queueNum (.ok (.position 0 false)))⟩ ∧
    ReadsLater c later 4 ∧
    later.threads[4]? = some ⟨Sample.askAlice, .done (.admission (.ok (.refused (.stillQueued 2 0))))⟩ ∧
    ¬ DecidesOn Sample.deployment (history later.log 4) Sample.alice 0 := by
  obtain ⟨c, run, good⟩ := System.exists_reaches_of_run
    (show ((room Sample.deployment).run prompt (.initial Sample.origin)
      (Sample.placed ++ Sample.askPlace)).any (fun c => toldAlice c 2 0 &&
        (history c.log 4).isEmpty && ((room Sample.deployment).run prompt c
          (Sample.joinAgain ++ [.start Sample.askAlice] ++ Sample.commits 4 2)).any (fun later =>
            Sample.askedAlice later 4 (.refused (.stillQueued 2 0)) &&
              readsPlace (history later.log 4) 2)) by decide +kernel)
  simp only [Bool.and_eq_true] at good
  obtain ⟨⟨told, unread⟩, suffix⟩ := good
  obtain ⟨later, goesOn, good⟩ := System.exists_reaches_of_run suffix
  obtain ⟨asked, reads⟩ := Bool.and_eq_true_iff.mp good
  refine ⟨c, later, run.free, goesOn.free, ended_of_toldAlice told,
    readsLater_of_prompt run goesOn unread, Sample.ended_of_askedAlice asked, fun decides => ?_⟩
  cases decides.eq_of_readsPlace reads

/-- Nobody joins again: the admission decides on the place that Alice was told. -/
theorem place_is_kept_sample : ∃ c later : Room,
    RoomRun Sample.deployment .free Sample.origin c ∧
    (room Sample.deployment).Reaches .free c later ∧
    c.threads[2]? = some ⟨.queueNum Sample.alice, .done (.queueNum (.ok (.position 0 false)))⟩ ∧
    later.threads[3]? = some ⟨Sample.askAlice, .done (.admission (.ok (.refused (.stillQueued 0 0))))⟩ ∧
    DecidesOn Sample.deployment (history later.log 3) Sample.alice 0 := by
  obtain ⟨c, run, good⟩ := System.exists_reaches_of_run
    (show ((room Sample.deployment).run prompt (.initial Sample.origin)
      (Sample.placed ++ Sample.askPlace)).any (fun c => toldAlice c 2 0 &&
        (history c.log 3).isEmpty && ((room Sample.deployment).run prompt c
          ([.start Sample.askAlice] ++ Sample.commits 3 3)).any (fun later =>
            Sample.askedAlice later 3 (.refused (.stillQueued 0 0)) &&
              later.log.all (givesNoSecond Sample.alice))) by decide +kernel)
  simp only [Bool.and_eq_true] at good
  obtain ⟨⟨told, unread⟩, suffix⟩ := good
  obtain ⟨later, goesOn, good⟩ := System.exists_reaches_of_run suffix
  obtain ⟨asked, single⟩ := Bool.and_eq_true_iff.mp good
  refine ⟨c, later, run.free, goesOn.free, ended_of_toldAlice told, Sample.ended_of_askedAlice asked, ?_⟩
  exact (place_is_kept Sample.origin_seeded run.free goesOn.free (givesNoSecond_of_check single)
    (ended_of_toldAlice told)).2 3 _ _ _ _ _ (readsLater_of_prompt run goesOn unread)
    (Sample.ended_of_askedAlice asked)

end WaitingRoom
