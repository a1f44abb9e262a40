import WaitingRoom.Protocol.Opening

/-!
# No accepted join is lost

A batch runs among any other jobs, from any tables, and every call of it may fail before or
after it landed. When it has returned, every id it accepted has a row or is returned to the
queue, only accepted messages are returned, a message whose row was seen written is not, and
an event that takes no joins is left alone (`no_join_lost`).
-/

set_option autoImplicit false

namespace WaitingRoom

open Dynamo Concurrency

/-- A row of the id exists. -/
def Db.Holds (db : Db) (requestId : RequestId) : Prop :=
  db.prequeue requestId ≠ none ∨ db.positions requestId ≠ none

/-- The event takes no joins: it is not opened and not in the pre-queue, or has no item. -/
def TakesNoJoins (d : Deployment) (db : Db) : Prop :=
  db.counters = none ∨ (d.view db).openOutputs = none ∧ (d.view db).phase ≠ .preQueue

section Joins

variable {d : Deployment} {policy : RoomPolicy} {origin db db' : Db} {log older : List RoomEntry}
  {entry : RoomEntry} {thread : ℕ}

/-- A row is never deleted. -/
theorem Db.Holds.grows {requestId : RequestId} (holds : db.Holds requestId) (grows : db.Grows db') :
    db'.Holds requestId := by
  rcases holds with registered | placed
  · obtain ⟨row, found⟩ := Option.ne_none_iff_exists'.mp registered
    exact .inl (by rw [grows.prequeue requestId row found]; nofun)
  · obtain ⟨row, found⟩ := Option.ne_none_iff_exists'.mp placed
    obtain ⟨row', found', -⟩ := grows.positions requestId row found
    exact .inr (by rw [found']; nofun)

/-- A pre-queue write that was answered leaves a row. -/
theorem Logged.holds_of_putPrequeue (logged : Logged d policy origin older entry)
    {write : PreQueueWrite} {outcome : WriteOutcome}
    (same : entry.exchange = answered (.putPrequeue write) (.ok outcome)) :
    entry.after.Holds write.requestId := by
  have performed := logged.committed_state same rfl nofun
  rcases perform_putPrequeue write entry.before with ⟨-, wrote⟩ | ⟨present, kept⟩
  · rw [performed, wrote]
    exact .inl (by simp)
  · rw [performed, kept]
    exact .inl (Option.isSome_iff_ne_none.mp present)

/-- A position write that was answered leaves a position row. -/
theorem Logged.position_of_put (logged : Logged d policy origin older entry)
    {write : PositionWrite} {outcome : WriteOutcome}
    (same : entry.exchange = answered (.putPosition write) (.ok outcome)) :
    entry.after.positions write.requestId ≠ none := by
  have performed := logged.committed_state same rfl nofun
  rcases perform_putPosition write entry.before with ⟨-, wrote⟩ | ⟨present, kept⟩
  · rw [performed, wrote]
    simp
  · rw [performed, kept]
    exact Option.isSome_iff_ne_none.mp present

/-- A row that was shown exists. -/
theorem RoomTrace.holds_of_shows (trace : RoomTrace d policy origin log db) {requestId : RequestId}
    (shows_ : ShowsRow (history log thread) requestId) : db.Holds requestId := by
  rcases shows_ with ⟨write, outcome, member, rfl⟩ | ⟨write, outcome, member, rfl⟩ |
    ⟨requestIds, found, member, inside⟩
  · obtain ⟨newer, entry, older, rfl, -, same, logged⟩ := trace.logged_of_history member
    exact Db.Holds.grows (.inr (logged.position_of_put same)) (trace.after_grows (by simp))
  · obtain ⟨newer, entry, older, rfl, -, same, logged⟩ := trace.logged_of_history member
    exact (logged.holds_of_putPrequeue same).grows (trace.after_grows (by simp))
  · obtain ⟨newer, entry, older, rfl, -, same, logged⟩ := trace.logged_of_history member
    obtain ⟨choice, -, responds⟩ := logged.responds
    rw [same] at responds
    have present := respond_batchGetPrequeue responds inside
    have before : entry.before.Holds requestId := .inl (Option.isSome_iff_ne_none.mp present)
    exact before.grows (trace.before_grows (by simp))

/-- A read of the counters leaves the tables alone, and what it was answered with is what they
held. -/
theorem Logged.reads_counters (logged : Logged d policy origin older entry)
    {answer : Except StoreError (Option Item)}
    (same : entry.exchange = answered (.getCounters true) answer) :
    entry.after = entry.before ∧ ∀ item, answer = .ok item → entry.before.counters = item := by
  obtain ⟨choice, -, responds⟩ := logged.responds
  rw [same] at responds
  refine ⟨?_, fun item read => ?_⟩
  · rcases respond_state responds with unchanged | performed
    · exact unchanged
    · exact performed
  · subst read
    exact (Except.ok.inj (congrArg Prod.fst (respond_ok rfl (by simp) responds))).symm

/-- What a batch read when the event takes no joins makes it refuse. -/
theorem refuses_of_takesNoJoins {answer : Except StoreError (Option Item)}
    (refuses : TakesNoJoins d db) (read : ∀ item, answer = .ok item → db.counters = item) :
    Refuses d answer := by
  cases answer with
  | error error => exact trivial
  | ok item =>
      have stored := read item rfl
      cases item with
      | none => exact trivial
      | some item =>
          rcases refuses with missing | closed
          · rw [stored] at missing
            cases missing
          · rw [Deployment.view, stored, Option.getD_some] at closed
            exact closed

end Joins

/-- **No accepted join is lost.** For every batch that has returned, whatever ran beside it and
whichever calls failed: every accepted id has a row or one of its messages is returned to the
queue; what is returned carries an accepted record; with distinct message ids, no message
whose pre-queue row was seen written is returned; and if the event took no joins when the
batch looked, the batch changed nothing and returned every accepted message. -/
theorem no_join_lost {d : Deployment} {origin : Db} {c : Room} (run : RoomRun d .free origin c)
    {thread : ℕ} {shard : Shard} {records : List BatchRecord} {batch : BatchOutcome}
    (returned : c.threads[thread]? = some ⟨.joinBatch shard records, .done (.batch batch)⟩) :
    (∀ record ∈ d.accepted records, c.state.Holds record.2.requestId ∨
      ∃ other ∈ d.accepted records, other.2.requestId = record.2.requestId ∧
        other.1 ∈ batch.failures) ∧
    (∀ messageId ∈ batch.failures, ∃ msg, (messageId, msg) ∈ d.accepted records) ∧
    ((records.map BatchRecord.messageId).Nodup → ∀ write,
      WrotePrequeue (history c.log thread) write → ∀ record ∈ d.accepted records,
        record.2.requestId = write.requestId → record.1 ∉ batch.failures) ∧
    (d.accepted records ≠ [] → ∃ looked ∈ c.log, looked.thread = thread ∧
      looked.exchange.call = .getCounters true ∧
      (TakesNoJoins d looked.before →
        (∀ entry ∈ c.log, entry.thread = thread → entry.after = entry.before) ∧
          ∀ record ∈ d.accepted records, record.1 ∈ batch.failures)) := by
  obtain ⟨batch', same, report⟩ := run.report returned
  obtain rfl := Outcome.batch.inj same
  have trace := run.trace
  refine ⟨fun record member => ?_, report.sound, fun distinct => ?_, fun some_ => ?_⟩
  · exact (report.covered record member).imp trace.holds_of_shows id
  · exact report.kept (accepted_nodup distinct)
  · obtain ⟨answer, newer, whole, refused⟩ := report.refused some_
    obtain ⟨newerLog, looked, olderLog, split, mine, exchange, logged⟩ :=
      trace.logged_of_history
        (show answered (.getCounters true) answer ∈ history c.log thread by rw [whole]; simp)
    obtain ⟨unchanged, read⟩ := logged.reads_counters exchange
    refine ⟨looked, by rw [split]; simp, mine, by rw [exchange], fun refuses => ?_⟩
    obtain ⟨only, failed⟩ := refused (refuses_of_takesNoJoins refuses read)
    refine ⟨fun entry member own => ?_, failed⟩
    have inHistory := mem_history_of_entry member
    rw [own, whole, only, List.nil_append, List.mem_singleton] at inHistory
    obtain ⟨_, _, -, logged'⟩ := trace.logged_of_mem member
    exact (logged'.reads_counters inHistory).1

/-- A batch of two registrations of which the second write is lost: the first visitor has a
row, and the second's message is returned. -/
theorem no_join_lost_sample : ∃ (c : Room) (batch : BatchOutcome),
    batch.failures = ["m2"] ∧
      ∀ record ∈ Sample.deployment.accepted [⟨"m1", "alice"⟩, ⟨"m2", "bob"⟩],
        c.state.Holds record.2.requestId ∨
          ∃ other ∈ Sample.deployment.accepted [⟨"m1", "alice"⟩, ⟨"m2", "bob"⟩],
            other.2.requestId = record.2.requestId ∧ other.1 ∈ batch.failures := by
  obtain ⟨c, run, ends⟩ := System.exists_reaches_of_run
    (show ((room Sample.deployment).run .free (.initial Sample.origin)
      (.start (.joinBatch Sample.shard [⟨"m1", "alice"⟩, ⟨"m2", "bob"⟩]) :: Sample.commits 0 4 ++
        .advance 0 (.lost ⟨"timeout"⟩) :: Sample.commits 0 1)).any
        (fun c => (c.result 0).any fun
          | (.joinBatch shard records, .batch batch) => decide (shard = Sample.shard ∧
              records = [⟨"m1", "alice"⟩, ⟨"m2", "bob"⟩] ∧ batch.failures = ["m2"])
          | _ => false) by decide +kernel)
  obtain ⟨⟨job, outcome⟩, returned, found⟩ := (Option.any_eq_true _ _).mp ends
  split at found
  · next shard records batch same =>
      obtain ⟨rfl, rfl⟩ := Prod.mk.inj same
      obtain ⟨rfl, rfl, failures⟩ := of_decide_eq_true found
      exact ⟨c, batch, failures, (no_join_lost run (Config.result_eq_some.mp returned)).1⟩
  · cases found

end WaitingRoom
