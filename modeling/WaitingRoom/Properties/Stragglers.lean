import WaitingRoom.Properties.Draw
import WaitingRoom.Properties.Joins
import WaitingRoom.Protocol.Rows

/-!
# Registrations that race the open

The open reads the shards before it lands, so a row can be written after its shard was read and
looked at before the open lands: its batch sees an event that is not open, and nobody gives the row
a place (`open_strands_registration`). No other registration is left without one
(`registrations_placed`).
-/

set_option autoImplicit false

namespace WaitingRoom

open Dynamo Concurrency

/-- No call was answered with an error. -/
def Reliable (log : List RoomEntry) : Prop := ∀ entry ∈ log, succeeded entry.exchange = true

/-- A batch looks at an event that is not open after it wrote a row that an open has read the shard
without. -/
def LooksTooEarly (older : List RoomEntry) (look : RoomEntry) : Prop :=
  look.exchange.call = .getCounters true ∧ ¬ look.before.Opened ∧
    ∃ write, WrotePrequeue (history older look.thread) write ∧ ∃ read ∈ older,
      read.exchange.call = .getShard write.shard ∧
        read.before.count write.shard ≤ write.localIndex

/-- An id has a place: its pre-queue row has a position, or it has a position row. -/
def Placed (d : Deployment) (db : Db) (requestId : RequestId) : Prop :=
  (∃ position, OwnPosition d db requestId position) ∨ db.positions requestId ≠ none

section Stragglers

variable {d : Deployment} {policy : RoomPolicy} {origin db db' : Db} {log newer older : List RoomEntry}
  {entry : RoomEntry} {thread : ℕ} {requestId : RequestId}

theorem Reliable.suffix (reliable : Reliable (newer ++ older)) : Reliable older :=
  fun entry member => reliable entry (List.mem_append_right newer member)

theorem Placed.grows (placed : Placed d db requestId) (grows : db.Grows db') :
    Placed d db' requestId := by
  rcases placed with ⟨position, own⟩ | row
  · exact .inl ⟨position, own.grows grows⟩
  · obtain ⟨found, stored⟩ := Option.ne_none_iff_exists'.mp row
    obtain ⟨still, stored', -⟩ := grows.positions requestId found stored
    exact .inr (by rw [stored']; nofun)

/-- An exchange without an error has a payload. -/
theorem exists_payload {exchange : Exchange Tables} (ok : succeeded exchange = true) :
    ∃ payload, exchange = answered exchange.call (.ok payload) := by
  obtain ⟨call, answer⟩ := exchange
  cases answer with
  | ok payload => exact ⟨payload, rfl⟩
  | error error => cases ok

/-- **Every row of a run without errors was seen written** by the batch that wrote it. -/
theorem RoomTrace.prequeue_written (seeded : Seeded origin)
    (trace : RoomTrace d policy origin log db) (reliable : Reliable log) {row : PreQueueItem}
    (found : db.prequeue requestId = some row) :
    ∃ entry ∈ log, ∃ write, entry.exchange = answered (.putPrequeue write) (.ok .written) ∧
      write.requestId = requestId ∧ row = write.row := by
  revert reliable found
  refine trace.rule (motive := fun log db => Reliable log → db.prequeue requestId = some row →
    ∃ entry ∈ log, ∃ write, entry.exchange = answered (.putPrequeue write) (.ok .written) ∧
      write.requestId = requestId ∧ row = write.row) ?_ ?_
  · intro _ found
    rw [seeded.prequeue requestId] at found
    cases found
  · intro entry older logged before reliable found
    rcases logged.effect.prequeue_cases requestId with same | ⟨write, call, rfl, absent, written⟩
    · obtain ⟨earlier, member, put⟩ := before [] older _ rfl logged.earlier
        (fun later member => reliable later (List.mem_cons_of_mem _ member)) (same ▸ found)
      exact ⟨earlier, List.mem_cons_of_mem _ member, put⟩
    · obtain ⟨payload, exchange⟩ := exists_payload (reliable entry List.mem_cons_self)
      have answer : ∃ outcome, entry.exchange = answered (.putPrequeue write) (.ok outcome) := by
        revert payload
        rw [call]
        exact fun payload exchange => ⟨payload, exchange⟩
      obtain ⟨outcome, exchange⟩ := answer
      refine ⟨entry, List.mem_cons_self, write, ?_, rfl, Option.some.inj (found.symm.trans written)⟩
      have replied := logged.committed_answer exchange rfl nofun
      rcases perform_putPrequeue write entry.before with ⟨-, performed⟩ | ⟨present, -⟩
      · rw [performed] at replied
        rw [exchange, Except.ok.inj replied]
      · rw [absent] at present
        cases present

/-- A claim of live positions in a run without errors hands out a block, while the end of the line
fits a `u64`. -/
theorem RoomTrace.claim_hands_out (seeded : Seeded origin)
    (trace : RoomTrace d policy origin log db) (reliable : Reliable log) (fits : db.line < u64Bound)
    {n : ℕ} {claim : Except StoreError (Option Item)}
    (member : answered (.updateCounters (.claimBlock n)) claim ∈ history log thread) :
    ¬ BlockFailed claim := by
  obtain ⟨newer, entry, older, rfl, -, same, logged⟩ := trace.logged_of_history member
  have ok := reliable entry (by simp)
  rw [same] at ok
  cases claim with
  | error error => cases ok
  | ok payload =>
      have performed := logged.committed same rfl (by simp)
      cases payload with
      | none =>
          have unrefused : updateItem entry.before.counters (CountersUpdate.claimBlock n).condition
              (CountersUpdate.claimBlock n).clauses ≠ .conditionFailed := by
            simp only [updateItem, CountersUpdate.condition, Condition.holds, if_true]
            split <;> simp
          simp only [perform] at performed
          split at performed
          · cases Except.ok.inj (Prod.mk.inj performed).1
          · exact absurd ‹_› unrefused
          · cases (Prod.mk.inj performed).1
      | some item =>
          obtain ⟨-, after⟩ := perform_updateCounters_some performed
          obtain ⟨line, stored⟩ := (trace.at_entry.lineCounted seeded).whole
          have held : item "queue_counter" = some (.N line) := by
            rwa [Db.attr, after, Option.getD_some] at stored
          have grew := trace.line_grows seeded trace.at_entry
          rw [line_of_attr stored] at grew
          have inside : line < u64Bound := by exact_mod_cast grew.trans_lt fits
          exact fun failed => failed item line rfl (num_of_natCast held inside)

/-- A shard that is read after a row took its index has counted it. -/
theorem RoomTrace.counted_of_read_later
    (trace : RoomTrace d policy origin (newer ++ entry :: older) db) {write : PreQueueWrite}
    (call : entry.exchange.call = .putPrequeue write) {read : RoomEntry} (later : read ∈ newer) :
    (write.localIndex : ℚ) < read.before.count write.shard := by
  obtain ⟨claim, takes⟩ := trace.putPrequeue_takes call
  obtain ⟨taken, rest, size, -, -, -, room, number, grew⟩ := takes.position
  obtain ⟨latest, between, rfl⟩ := List.append_of_mem later
  have below : claim ∈ between ++ entry :: older :=
    List.mem_append_right _ (List.mem_cons_of_mem _ takes.member)
  have whole : RoomTrace d policy origin (latest ++ read :: (between ++ entry :: older)) db := by
    simpa using trace
  have counted : claim.after.count write.shard ≤ read.before.count write.shard :=
    (whole.between_grows below).shards write.shard
  have inside : (taken.length : ℚ) < size := by exact_mod_cast room
  linarith

/-- A row behind a counted index resolves. -/
theorem Published.own {counts : Shard → ℕ} {seed : Seed} (published : Published d db counts seed)
    {write : PreQueueWrite} (stored : db.prequeue write.requestId = some write.row)
    (counted : write.localIndex < counts write.shard) :
    ∃ position, OwnPosition d db write.requestId position := by
  have resolved :=
    published.resolve write.shard write.requestId write.localIndex (some write.digest)
  rw [if_pos counted] at resolved
  exact ⟨_, write.row, stored, resolved⟩

/-- A row that was seen written is stored. -/
theorem Logged.stored_of_written (logged : Logged d policy origin older entry) {write : PreQueueWrite}
    (same : entry.exchange = answered (.putPrequeue write) (.ok .written)) :
    entry.after.prequeue write.requestId = some write.row := by
  have performed := logged.committed same rfl nofun
  rcases perform_putPrequeue write entry.before with ⟨-, wrote⟩ | ⟨-, kept⟩
  · rw [wrote] at performed
    rw [(Prod.mk.inj performed).2]
    exact Function.update_self _ _ _
  · rw [kept] at performed
    cases Except.ok.inj (Prod.mk.inj performed).1

/-- A row that its batch looks at while the event is open has a place: it was counted, or the batch
puts a position row. -/
theorem RoomTrace.placed_of_opened {look : RoomEntry} (seeded : Seeded origin)
    (trace : RoomTrace d policy origin (newer ++ look :: older) db)
    (reliable : Reliable (newer ++ look :: older)) (fits : db.line < u64Bound)
    (opened : look.before.Opened) {write : PreQueueWrite}
    (stored : look.before.prequeue write.requestId = some write.row) {item : Option Item}
    (read : look.exchange = answered (.getCounters true) (.ok item))
    (fixed : ∀ seen outputs, item = some seen → (d.parse seen).openOutputs = some outputs →
      outputs.offsets.assign write.shard write.localIndex = .liveJoin →
      (∃ n claim, answered (.updateCounters (.claimBlock n)) claim ∈ history newer look.thread ∧
        BlockFailed claim) ∨ PutFor (history newer look.thread) write.requestId) :
    Placed d db write.requestId := by
  have member : look ∈ newer ++ look :: older := by simp
  have grows := trace.before_grows member
  have later : ∀ exchange ∈ history newer look.thread,
      exchange ∈ history (newer ++ look :: older) look.thread := by
    intro exchange member
    rw [history_append]
    exact List.mem_append_left _ member
  obtain ⟨counts, seed, published⟩ := (trace.logged.earlier.opening seeded).published opened
  by_cases counted : write.localIndex < counts write.shard
  · exact Placed.grows (.inl (published.own stored counted)) grows
  have here := (trace.logged.reads_counters read).2 item rfl
  have outputs := published.outputs
  cases item with
  | none =>
      rw [Db.Opened, Db.attr, here] at opened
      exact absurd rfl opened
  | some seen =>
      rw [Deployment.view, here, Option.getD_some] at outputs
      have uncounted : (OpenOutputs.ofCounts counts seed).offsets.assign write.shard write.localIndex =
          .liveJoin := by
        rw [OpenOutputs.ofCounts, CohortOffsets.assign_ofCounts published.bounded, if_neg counted]
      rcases fixed seen _ rfl outputs uncounted with ⟨n, claim, member, failed⟩ |
        ⟨put, reply, member, same⟩
      · exact absurd failed (trace.claim_hands_out seeded reliable fits (later _ member))
      · obtain ⟨newer', entry, older', whole, -, exchange, logged⟩ :=
          trace.logged_of_history (later _ member)
        have inLog : entry ∈ newer ++ look :: older := by
          rw [whole]
          simp
        have ok := reliable entry inLog
        rw [exchange] at ok
        cases reply with
        | error error => cases ok
        | ok outcome =>
            rw [← same]
            exact Placed.grows (.inr (logged.position_of_put exchange)) (trace.after_grows inLog)

/-- A row whose batch looked in time, before the event opened, was counted. -/
theorem RoomTrace.placed_of_unopened {look : RoomEntry} (seeded : Seeded origin)
    (trace : RoomTrace d policy origin (newer ++ look :: older) db) (opened : db.Opened)
    (unopened : ¬ look.before.Opened) (looks : look.exchange.call = .getCounters true)
    (inTime : ¬ LooksTooEarly older look) {write : PreQueueWrite}
    (wrote : WrotePrequeue (history older look.thread) write)
    (stored : db.prequeue write.requestId = some write.row) : Placed d db write.requestId := by
  obtain ⟨_, winner, oldest, counts, seed, whole, won, published⟩ := trace.winner seeded opened
  obtain ⟨read, reads⟩ := won.reads write.shard
  obtain ⟨item, exchange⟩ := reads.call
  have inLog : read ∈ newer ++ look :: older := by
    rw [whole]
    exact List.mem_append_right _ (List.mem_cons_of_mem _ reads.member)
  have counted : (write.localIndex : ℚ) < read.before.count write.shard := by
    rcases List.mem_append.mp inLog with later | here
    · obtain ⟨between, entry, oldest', rfl, -, put, -⟩ := trace.logged.earlier.logged_of_history wrote
      have regrouped : RoomTrace d policy origin ((newer ++ look :: between) ++ entry :: oldest') db := by
        simpa using trace
      exact regrouped.counted_of_read_later (by rw [put]) (List.mem_append_left _ later)
    · rcases List.mem_cons.mp here with rfl | before
      · rw [exchange] at looks
        cases looks
      · by_contra missed
        exact inTime ⟨looks, unopened, write, wrote, read, before, by rw [exchange],
          not_lt.mp missed⟩
  rw [Db.count, reads.counted] at counted
  exact .inl (published.own stored (by exact_mod_cast counted))

/-- A row that its batch looked at again has a place. -/
theorem RoomTrace.placed_of_looked (seeded : Seeded origin)
    (trace : RoomTrace d policy origin log db) (reliable : Reliable log) (fits : db.line < u64Bound)
    (opened : db.Opened)
    (inTime : ∀ newer look older, log = newer ++ look :: older → ¬ LooksTooEarly older look)
    {write : PreQueueWrite} (looked : LookedAgain d (history log thread) write) :
    Placed d db write.requestId := by
  obtain ⟨_, answer, _, split, wrote, fixed⟩ := looked
  obtain ⟨newer, look, older, rfl, rfl, exchange, rfl, rfl⟩ := exists_split_of_history split
  obtain ⟨between, entry, oldest, rfl, -, put, logged⟩ := trace.logged.earlier.logged_of_history wrote
  have stored : look.before.prequeue write.requestId = some write.row :=
    (trace.between_grows (by simp)).prequeue _ _ (logged.stored_of_written put)
  have ok := reliable look (by simp)
  rw [exchange] at ok
  cases answer with
  | error error => cases ok
  | ok item =>
      by_cases unopened : look.before.Opened
      · exact trace.placed_of_opened seeded reliable fits unopened stored exchange
          fun seen outputs same => fixed seen outputs (congrArg Except.ok same)
      · exact trace.placed_of_unopened seeded opened unopened (by rw [exchange])
          (inTime _ _ _ rfl) wrote ((trace.before_grows (by simp)).prequeue _ _ stored)

end Stragglers

/-- Every batch that was started has returned. -/
def BatchesReturned (c : Room) : Prop :=
  ∀ thread shard records, c.jobs[thread]? = some (.joinBatch shard records) → c.result thread ≠ none

/-- In a run whose batches have all returned, a stored row was looked at again. -/
theorem RoomRun.placed_of_stored {d : Deployment} {policy : RoomPolicy} {origin : Db}
    (seeded : Seeded origin) {c : Room} (run : RoomRun d policy origin c) (reliable : Reliable c.log)
    (fits : c.state.line < u64Bound)
    (inTime : ∀ newer look older, c.log = newer ++ look :: older → ¬ LooksTooEarly older look)
    (opened : c.state.Opened) (returned : BatchesReturned c) {requestId : RequestId}
    (stored : c.state.prequeue requestId ≠ none) : Placed d c.state requestId := by
  have trace := run.trace
  obtain ⟨row, found⟩ := Option.ne_none_iff_exists'.mp stored
  obtain ⟨entry, inLog, write, exchange, rfl, -⟩ := trace.prequeue_written seeded reliable found
  obtain ⟨newer, older, -, logged⟩ := trace.logged_of_mem inLog
  have lawful := logged.lawful
  rw [exchange] at lawful
  obtain ⟨shard, records, job⟩ := lawful.batch
  have started := System.Reaches.job_of_entry run inLog
  rw [job] at started
  obtain ⟨⟨job', outcome⟩, ended⟩ := Option.ne_none_iff_exists'.mp (returned _ _ _ started)
  rw [Config.result_eq_some] at ended
  obtain rfl : job' = .joinBatch shard records := by
    rw [Config.jobs, List.getElem?_map, ended] at started
    exact Option.some.inj started
  obtain ⟨batch, rfl, report⟩ := run.report ended
  have wrote : WrotePrequeue (history c.log entry.thread) write := by
    rw [WrotePrequeue, ← exchange]
    exact mem_history_of_entry inLog
  exact trace.placed_of_looked seeded reliable fits opened inTime (report.looked write wrote)

/-- **No registration that races the open is left without a place** while no batch looks too early:
in a run without errors, once the event is open and every batch has returned, every accepted id that
was not reported as a failure has a place. -/
theorem registrations_placed {d : Deployment} {origin : Db} (seeded : Seeded origin) {c : Room}
    (run : RoomRun d .free origin c) (reliable : Reliable c.log) (fits : c.state.line < u64Bound)
    (inTime : ∀ newer look older, c.log = newer ++ look :: older → ¬ LooksTooEarly older look)
    (opened : c.state.Opened) (returned : BatchesReturned c) {thread : ℕ} {shard : Shard}
    {records : List BatchRecord} {batch : BatchOutcome}
    (ended : c.threads[thread]? = some ⟨.joinBatch shard records, .done (.batch batch)⟩) :
    ∀ record ∈ d.accepted records,
      (∀ other ∈ d.accepted records, other.2.requestId = record.2.requestId →
        other.1 ∉ batch.failures) → Placed d c.state record.2.requestId := by
  intro record member unreported
  obtain ⟨batch', same, report⟩ := run.report ended
  obtain rfl := Outcome.batch.inj same
  rcases report.covered record member with shown | ⟨other, inside, same', failed⟩
  · rcases run.trace.holds_of_shows shown with stored | row
    · exact run.placed_of_stored seeded reliable fits inTime opened returned stored
    · exact .inr row
  · exact absurd failed (unreported other inside same')

/-! ## Sample runs -/

/-- Every batch of the pool has returned. -/
def batchesReturned (threads : List (Thread Tables Job Outcome)) : Bool :=
  threads.all fun thread =>
    match thread with
    | ⟨.joinBatch _ _, .call _ _⟩ => false
    | _ => true

theorem batchesReturned_of_check {c : Room} (checked : batchesReturned c.threads) :
    BatchesReturned c := by
  intro thread shard records started unfinished
  rw [Config.jobs, List.getElem?_map, Option.map_eq_some_iff] at started
  obtain ⟨⟨job, program⟩, found, rfl⟩ := started
  have here := List.all_eq_true.mp checked _ (List.mem_of_getElem? found)
  cases program with
  | done outcome => simp [Config.result, found] at unfinished
  | call request next => cases here

/-- What a batch of one record returned without a failure. -/
def returnedClean (c : Room) (thread : ℕ) (records : List BatchRecord) : Bool :=
  match c.result thread with
  | some (.joinBatch shard found, .batch batch) =>
      decide (shard = Sample.shard ∧ found = records ∧ batch = ⟨[]⟩)
  | _ => false

theorem ended_of_returnedClean {c : Room} {thread : ℕ} {records : List BatchRecord}
    (clean : returnedClean c thread records) :
    c.threads[thread]? = some ⟨.joinBatch Sample.shard records, .done (.batch ⟨[]⟩)⟩ := by
  unfold returnedClean at clean
  split at clean
  · next shard found batch ended =>
      obtain ⟨rfl, rfl, rfl⟩ := of_decide_eq_true clean
      exact Config.result_eq_some.mp ended
  · cases clean

/-- Every look at the counters comes before its batch has written a row, or after the open. -/
def looksInTime : List RoomEntry → Bool
  | [] => true
  | look :: older =>
      (decide look.before.Opened || (history older look.thread).all fun exchange =>
        match exchange with
        | ⟨.putPrequeue _, .ok .written⟩ => false
        | _ => true) && looksInTime older

theorem inTime_of_looksInTime {log : List RoomEntry} (checked : looksInTime log) :
    ∀ newer look older, log = newer ++ look :: older → ¬ LooksTooEarly older look := by
  induction log with
  | nil =>
      intro newer look older whole
      simp at whole
  | cons entry log ih =>
      rw [looksInTime, Bool.and_eq_true] at checked
      rintro (_ | ⟨first, newer⟩) look older whole early
      · obtain ⟨rfl, rfl⟩ := List.cons_eq_cons.mp whole
        obtain ⟨-, unopened, write, wrote, -⟩ := early
        rw [decide_eq_false unopened, Bool.false_or] at checked
        cases List.all_eq_true.mp checked.1 _ wrote
      · obtain ⟨-, rest⟩ := List.cons_eq_cons.mp whole
        exact ih checked.2 newer look older rest early

namespace Sample

/-- A batch of one visitor, and the open. -/
def race : List (Action Job Choice) :=
  [.start (.joinBatch shard [⟨"m1", "alice"⟩]), .start (.openEvent seed .ascending)]

/-- What a run of the race is checked for. -/
def raceEnded (c : Room) : Bool :=
  c.log.all (fun entry => succeeded entry.exchange) && decide (c.state.line < u64Bound) &&
    decide c.state.Opened && batchesReturned c.threads && returnedClean c 0 [⟨"m1", "alice"⟩]

theorem accepted_alice : deployment.accepted [⟨"m1", "alice"⟩] = [("m1", ⟨alice, "demo", aliceDigest⟩)] := by
  decide +kernel

end Sample

/-- The open lands after a batch wrote a row its read missed, and before the batch looks again. -/
theorem registrations_placed_sample : ∃ c : Room, RoomRun Sample.deployment .free Sample.origin c ∧
    c.state.Opened ∧ Placed Sample.deployment c.state Sample.alice := by
  obtain ⟨c, run, good⟩ := System.exists_reaches_of_run
    (show ((room Sample.deployment).run .free (.initial Sample.origin)
      (Sample.race ++ Sample.commits 1 1 ++ Sample.commits 0 4 ++ Sample.commits 1 10 ++
        Sample.commits 0 3)).any (fun c => Sample.raceEnded c && looksInTime c.log) by decide +kernel)
  simp only [Sample.raceEnded, Bool.and_eq_true, decide_eq_true_eq, List.all_eq_true] at good
  obtain ⟨⟨⟨⟨⟨reliable, fits⟩, opened⟩, returned⟩, clean⟩, inTime⟩ := good
  refine ⟨c, run, opened, ?_⟩
  refine registrations_placed Sample.origin_seeded run reliable fits (inTime_of_looksInTime inTime)
    opened (batchesReturned_of_check returned) (ended_of_returnedClean clean)
    ("m1", ⟨Sample.alice, "demo", Sample.aliceDigest⟩) ?_ fun _ _ _ => List.not_mem_nil
  rw [Sample.accepted_alice]
  exact List.mem_singleton.mpr rfl

/-- The open reads a shard, a batch registers a visitor on it and looks, and the open lands: nothing
failed, and the visitor has no place. -/
theorem open_strands_registration : ∃ c : Room, RoomRun Sample.deployment .free Sample.origin c ∧
    Reliable c.log ∧ c.state.line < u64Bound ∧ c.state.Opened ∧ BatchesReturned c ∧
    c.threads[0]? =
      some ⟨.joinBatch Sample.shard [⟨"m1", "alice"⟩], .done (.batch ⟨[]⟩)⟩ ∧
    ("m1", ⟨Sample.alice, "demo", Sample.aliceDigest⟩) ∈
      Sample.deployment.accepted [⟨"m1", "alice"⟩] ∧
    ¬ Placed Sample.deployment c.state Sample.alice := by
  obtain ⟨c, run, good⟩ := System.exists_reaches_of_run
    (show ((room Sample.deployment).run .free (.initial Sample.origin)
      (Sample.race ++ Sample.commits 1 1 ++ Sample.commits 0 5 ++ Sample.commits 1 10)).any
      (fun c => Sample.raceEnded c && decide (c.state.positions Sample.alice = none ∧
        ∀ row ∈ c.state.prequeue Sample.alice, (Sample.deployment.view c.state).resolvePrequeue
          Sample.deployment.hmac row = .ok .liveJoin)) by decide +kernel)
  simp only [Sample.raceEnded, Bool.and_eq_true, decide_eq_true_eq, List.all_eq_true] at good
  obtain ⟨⟨⟨⟨⟨reliable, fits⟩, opened⟩, returned⟩, clean⟩, unplaced, straggles⟩ := good
  refine ⟨c, run, reliable, fits, opened, batchesReturned_of_check returned,
    ended_of_returnedClean clean, by rw [Sample.accepted_alice]; exact List.mem_singleton.mpr rfl, ?_⟩
  rintro (⟨position, row, stored, resolves⟩ | row)
  · rw [straggles row stored] at resolves
    cases Except.ok.inj resolves
  · exact row unplaced

end WaitingRoom
