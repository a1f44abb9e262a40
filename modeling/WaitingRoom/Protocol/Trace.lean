import WaitingRoom.Concurrency.Blocks
import WaitingRoom.Protocol.Conformance

/-!
# What the log of a run says

Every logged call was legal for what its job had learned, and had one effect on the tables
(`Logged`). The states between two entries grow (`RoomTrace.grows`), and whatever a job was
told without an error was true of a state the tables once held (`RoomTrace.performed`).
-/

set_option autoImplicit false

namespace WaitingRoom

open Dynamo Concurrency

variable {d : Deployment} {policy : RoomPolicy} {origin start db : Db}
  {log newer older : List RoomEntry} {entry : RoomEntry}

/-! ## One entry -/

/-- One logged call, and the log below it. -/
structure Logged (d : Deployment) (policy : RoomPolicy) (origin : Db) (older : List RoomEntry)
    (entry : RoomEntry) : Prop where
  earlier : RoomTrace d policy origin older entry.before
  lawful : legal d entry.job (history older entry.thread) entry.exchange.call
  responds : ∃ choice,
    policy.steps older entry.before entry.thread entry.job entry.exchange.call choice ∧
    respond entry.exchange.call choice (past older) entry.before =
      some (entry.exchange.answer, entry.after)

theorem RoomTrace.logged_head {log : List RoomEntry}
    (trace : RoomTrace d policy origin (entry :: log) db) : Logged d policy origin log entry := by
  cases trace with
  | cons earlier lawful allowed responds => exact ⟨earlier, lawful, _, allowed, responds⟩

theorem RoomTrace.logged (trace : RoomTrace d policy origin (newer ++ entry :: older) db) :
    Logged d policy origin older entry := by
  obtain ⟨earlier, lawful, responds⟩ := trace.split
  exact ⟨earlier, lawful, responds⟩

/-- An entry of the log, with the log below it. -/
theorem RoomTrace.logged_of_mem (trace : RoomTrace d policy origin log db) (member : entry ∈ log) :
    ∃ newer older, log = newer ++ entry :: older ∧ Logged d policy origin older entry := by
  obtain ⟨newer, older, rfl⟩ := List.append_of_mem member
  exact ⟨newer, older, rfl, trace.logged⟩

namespace Logged

theorem effect (logged : Logged d policy origin older entry) :
    Effect entry.before entry.exchange.call entry.after := by
  obtain ⟨choice, -, responds⟩ := logged.responds
  exact respond_effect responds

theorem grows (logged : Logged d policy origin older entry) : entry.before.Grows entry.after :=
  logged.effect.grows

/-- A call that was answered without an error was performed, unless it may read stale. -/
theorem committed {call : Call} {payload : Payload call} (logged : Logged d policy origin older entry)
    (same : entry.exchange = answered call (.ok payload))
    (consistent : call.eventuallyConsistent = false)
    (single : ∀ requestIds, call ≠ .batchGetPrequeue requestIds) :
    (.ok payload, entry.after) = perform call entry.before := by
  obtain ⟨choice, -, responds⟩ := logged.responds
  rw [same] at responds
  exact respond_ok consistent single responds

/-- What it left, and what it answered. -/
theorem committed_state {call : Call} {payload : Payload call}
    (logged : Logged d policy origin older entry)
    (same : entry.exchange = answered call (.ok payload))
    (consistent : call.eventuallyConsistent = false)
    (single : ∀ requestIds, call ≠ .batchGetPrequeue requestIds) :
    entry.after = (perform call entry.before).2 :=
  congrArg Prod.snd (logged.committed same consistent single)

theorem committed_answer {call : Call} {payload : Payload call}
    (logged : Logged d policy origin older entry)
    (same : entry.exchange = answered call (.ok payload))
    (consistent : call.eventuallyConsistent = false)
    (single : ∀ requestIds, call ≠ .batchGetPrequeue requestIds) :
    .ok payload = (perform call entry.before).1 :=
  congrArg Prod.fst (logged.committed same consistent single)

end Logged

/-! ## The states of a run -/

theorem RoomTrace.step_grows (trace : RoomTrace d policy origin log db) (member : entry ∈ log) :
    entry.before.Grows entry.after := by
  obtain ⟨newer, older, -, logged⟩ := trace.logged_of_mem member
  exact logged.grows

/-- **The tables grow along a run.** -/
theorem RoomTrace.grows (trace : RoomTrace d policy origin (newer ++ older) db)
    (earlier : RoomTrace d policy origin older start) : start.Grows db :=
  Trace.relates Db.Grows Db.Grows.refl (fun _ _ _ => Db.Grows.trans) earlier trace fun _ member =>
    trace.step_grows (List.mem_append_left _ member)

/-- A run that goes on adds to the log. -/
theorem RoomRun.extend {c later : Room} (run : RoomRun d policy origin c)
    (goesOn : (room d).Reaches policy c later) :
    ∃ newer, later.log = newer ++ c.log ∧
      RoomTrace d policy origin (newer ++ c.log) later.state := by
  obtain ⟨newer, whole⟩ := goesOn.log_suffix
  have trace := RoomRun.trace (System.Reaches.trans run goesOn)
  rw [whole] at trace
  exact ⟨newer, whole, trace⟩

/-- The tables grow when a run goes on. -/
theorem RoomRun.grows {c later : Room} (run : RoomRun d policy origin c)
    (goesOn : (room d).Reaches policy c later) : c.state.Grows later.state := by
  obtain ⟨newer, -, trace⟩ := run.extend goesOn
  exact trace.grows run.trace

theorem RoomTrace.origin_grows (trace : RoomTrace d policy origin log db) : origin.Grows db := by
  rw [← List.append_nil log] at trace
  exact trace.grows .nil

/-- An event that was set up keeps its `Counters` item. -/
theorem RoomTrace.exists_counters (trace : RoomTrace d policy origin log db) (seeded : Seeded origin) :
    db.counters ≠ none :=
  Option.isSome_iff_ne_none.mp
    (trace.origin_grows.counters (Option.isSome_iff_ne_none.mpr seeded.exists_counters))

/-- The tables an entry left are those of the log that ends with it. -/
theorem RoomTrace.at_entry (trace : RoomTrace d policy origin (newer ++ entry :: older) db) :
    RoomTrace d policy origin (entry :: older) entry.after := by
  obtain ⟨state, ending⟩ := trace.suffix
  rw [ending.after_of_split]
  exact ending

theorem RoomTrace.after_grows (trace : RoomTrace d policy origin log db) (member : entry ∈ log) :
    entry.after.Grows db := by
  obtain ⟨newer, older, rfl, -⟩ := trace.logged_of_mem member
  exact trace.grows trace.at_entry

theorem RoomTrace.before_grows (trace : RoomTrace d policy origin log db) (member : entry ∈ log) :
    entry.before.Grows db :=
  (trace.step_grows member).trans (trace.after_grows member)

/-- What an entry left grew until a later one. -/
theorem RoomTrace.between_grows {later : RoomEntry}
    (trace : RoomTrace d policy origin (newer ++ later :: older) db) (member : entry ∈ older) :
    entry.after.Grows later.before :=
  trace.logged.earlier.after_grows member

/-- **The rule for what holds of every log of a run.** -/
theorem RoomTrace.rule {motive : List RoomEntry → Db → Prop} (nil : motive [] origin)
    (step : ∀ entry older, Logged d policy origin older entry →
      (∀ newer oldest state, older = newer ++ oldest → RoomTrace d policy origin oldest state →
        motive oldest state) → motive (entry :: older) entry.after)
    (trace : RoomTrace d policy origin log db) : motive log db :=
  Trace.rule nil (fun entry older ending before => step entry older
    (RoomTrace.logged_head ending) before) trace

/-! ## What a job was told -/

/-- The tables once held this state. -/
def Held (d : Deployment) (policy : RoomPolicy) (origin : Db) (log : List RoomEntry) (old : Db) :
    Prop :=
  ∃ newer older, log = newer ++ older ∧ RoomTrace d policy origin older old

theorem Held.grows {old : Db} (held : Held d policy origin log old)
    (trace : RoomTrace d policy origin log db) : old.Grows db := by
  obtain ⟨newer, older, rfl, earlier⟩ := held
  exact trace.grows earlier

theorem Held.mono {old : Db} (held : Held d policy origin older old) :
    Held d policy origin (newer ++ older) old := by
  obtain ⟨between, oldest, rfl, earlier⟩ := held
  exact ⟨newer ++ between, oldest, by rw [List.append_assoc], earlier⟩

/-- **The rule for what holds of every state of a run**: it holds at the start, and a call keeps
it that held of every state so far. -/
theorem RoomTrace.invariant (inv : Db → Prop) (start : inv origin)
    (step : ∀ entry older, Logged d policy origin older entry →
      (∀ old, Held d policy origin older old → inv old) → inv entry.after)
    (trace : RoomTrace d policy origin log db) : inv db := by
  refine trace.rule (motive := fun _ state => inv state) start fun entry older logged before => ?_
  refine step entry older logged fun old held => ?_
  obtain ⟨newer, oldest, whole, earlier⟩ := held
  exact before newer oldest old whole earlier

/-- An exchange of a thread is logged. -/
theorem RoomTrace.logged_of_history {thread : ℕ} {exchange : Exchange Tables}
    (trace : RoomTrace d policy origin log db) (member : exchange ∈ history log thread) :
    ∃ newer entry older, log = newer ++ entry :: older ∧ entry.thread = thread ∧
      entry.exchange = exchange ∧ Logged d policy origin older entry := by
  obtain ⟨entry, inLog, mine, same⟩ := mem_history.mp member
  obtain ⟨newer, older, whole, logged⟩ := trace.logged_of_mem inLog
  exact ⟨newer, entry, older, whole, mine, same, logged⟩

/-- **What a job was told without an error was true of a state the tables once held.** -/
theorem RoomTrace.performed {thread : ℕ} {call : Call} {payload : Payload call}
    (trace : RoomTrace d policy origin log db)
    (member : answered call (.ok payload) ∈ history log thread)
    (single : ∀ requestIds, call ≠ .batchGetPrequeue requestIds) :
    ∃ old, Held d policy origin log old ∧ (perform call old).1 = .ok payload := by
  obtain ⟨newer, entry, older, rfl, -, same, logged⟩ := trace.logged_of_history member
  obtain ⟨choice, -, responds⟩ := logged.responds
  have now : Held d policy origin (newer ++ entry :: older) entry.before :=
    ⟨newer ++ [entry], older, by simp, logged.earlier⟩
  rw [same] at responds
  cases consistent : call.eventuallyConsistent with
  | false =>
      have performed := respond_ok consistent single responds
      exact ⟨entry.before, now, (Prod.mk.inj performed).1.symm⟩
  | true =>
      obtain ⟨old, rfl | older', performed⟩ := respond_stale consistent responds
      · exact ⟨_, now, performed⟩
      · obtain ⟨between, oldest, rfl, earlier⟩ := logged.earlier.of_past older'
        exact ⟨old, ⟨newer ++ entry :: between, oldest, by simp, earlier⟩, performed⟩

/-- The `Counters` item a job read was once the stored one. -/
theorem RoomTrace.read_counters {thread : ℕ} {consistent : Bool} {item : Option Item}
    (trace : RoomTrace d policy origin log db)
    (member : answered (.getCounters consistent) (.ok item) ∈ history log thread) :
    ∃ old, Held d policy origin log old ∧ old.counters = item := by
  obtain ⟨old, held, performed⟩ := trace.performed member nofun
  exact ⟨old, held, Except.ok.inj performed⟩

/-- The pre-queue row a job read was once the stored one. -/
theorem RoomTrace.read_prequeue {thread : ℕ} {requestId : RequestId} {row : Option PreQueueItem}
    (trace : RoomTrace d policy origin log db)
    (member : answered (.getPrequeue requestId) (.ok row) ∈ history log thread) :
    ∃ old, Held d policy origin log old ∧ old.prequeue requestId = row := by
  obtain ⟨old, held, performed⟩ := trace.performed member nofun
  exact ⟨old, held, Except.ok.inj performed⟩

/-- The position row a job read was once the stored one. -/
theorem RoomTrace.read_position {thread : ℕ} {consistent : Bool} {requestId : RequestId}
    {row : Option PositionItem} (trace : RoomTrace d policy origin log db)
    (member : answered (.getPosition consistent requestId) (.ok row) ∈ history log thread) :
    ∃ old, Held d policy origin log old ∧ old.positions requestId = row := by
  obtain ⟨old, held, performed⟩ := trace.performed member nofun
  exact ⟨old, held, Except.ok.inj performed⟩

end WaitingRoom
