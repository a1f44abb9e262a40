import WaitingRoom.Protocol.Opening

/-!
# The line and the cursor

Two numbers on the `Counters` item are written by racing jobs. The end of the line is zero
until the open sets it to the cohort's size, and only grows from then on
(`RoomTrace.line_grows`). The cursor is moved by a compare-and-set to what a release computed
from an older reading of both, so it stays within one of the end of the line
(`RoomTrace.cursor`), and it only grows too (`RoomTrace.cursor_grows`).
-/

set_option autoImplicit false

namespace WaitingRoom

open Dynamo Concurrency

/-- The end of the line. -/
abbrev Db.line (db : Db) : ℚ := db.number "queue_counter"

/-- The cursor. -/
abbrev Db.cursor (db : Db) : ℚ := db.number "serving_counter"

/-- The end of the line is a whole number, and zero until the open. -/
structure LineCounted (db : Db) : Prop where
  whole : ∃ n : ℕ, db.attr "queue_counter" = some (.N n)
  unopened : ¬ db.Opened → db.attr "queue_counter" = some (.N 0)

/-- The cursor is a `u64`, at most one past the end of the line. -/
structure CursorBounded (db : Db) : Prop where
  whole : ∃ n : ℕ, n < u64Bound ∧ db.attr "serving_counter" = some (.N n)
  bounded : db.cursor ≤ db.line + 1

theorem number_of_attr {db : Db} {name : String} {n : ℚ} (stored : db.attr name = some (.N n)) :
    db.number name = n := by
  rw [Db.attr] at stored
  rw [Db.number, numberOf, stored]
  rfl

theorem line_of_attr {db : Db} {n : ℚ} (stored : db.attr "queue_counter" = some (.N n)) :
    db.line = n := number_of_attr stored

theorem cursor_of_attr {db : Db} {n : ℚ} (stored : db.attr "serving_counter" = some (.N n)) :
    db.cursor = n := number_of_attr stored

/-! ## The writers -/

section Writers

variable {update : CountersUpdate} {stored : Option Item} {item : Item}

/-- Who writes the end of the line. -/
theorem updateItem_line
    (updated : updateItem stored update.condition update.clauses = .updated item) :
    item "queue_counter" = stored.getD .empty "queue_counter" ∨
      (∃ n, update = .claimBlock n ∧
        item "queue_counter" = some (.N (numberOf stored "queue_counter" + n))) ∨
      ∃ values, update = .writeOpen values ∧
        item "queue_counter" = some (.N values.participantCount) := by
  cases update with
  | claimBlock n => exact .inr (.inl ⟨n, rfl, updateItem_add [] updated⟩)
  | writeOpen values =>
      refine .inr (.inr ⟨values, rfl, updateItem_set [_, _] updated ?_⟩)
      simp [Clause.attr]
  | writeRelease _ _ | setPhase _ _ _ | setRate _ _ _ | setMessage _ _ | setStoredControl _ _ _
  | stampAction _ | forceMaintenance _ _ | setFailOpenUntil _ _ | setFailOpenUntilFallback _
  | rulesAudit _ _ _ =>
      refine .inl (updateItem_of_ne updated ?_)
      simp [CountersUpdate.clauses, CountersUpdate.auditClauses, Clause.attr]
  | setStartsAt startsAt _ =>
      refine .inl (updateItem_of_ne updated ?_)
      cases startsAt <;>
        simp [CountersUpdate.clauses, CountersUpdate.startsAtClauses, CountersUpdate.auditClauses,
          Clause.attr]

/-- Who moves the cursor, and from where. -/
theorem updateItem_cursor
    (updated : updateItem stored update.condition update.clauses = .updated item) :
    item "serving_counter" = stored.getD .empty "serving_counter" ∨
      ∃ decision expected, update = .writeRelease decision expected ∧
        (stored.getD .empty "serving_counter" = none ∨
          stored.getD .empty "serving_counter" = some (.N expected)) ∧
        item "serving_counter" = some (.N decision.nextServingCounter) := by
  by_cases releases : ∃ decision expected, update = .writeRelease decision expected
  · obtain ⟨decision, expected, rfl⟩ := releases
    refine .inr ⟨decision, expected, rfl, ?_, updateItem_set [] updated ?_⟩
    · have guard := updateItem_holds updated
      simp only [CountersUpdate.condition, Condition.holds, Bool.or_eq_true,
        Option.isNone_iff_eq_none] at guard
      exact guard.imp id Condition.eq_of_equals_N
    · simp [Clause.attr]
  · refine .inl (updateItem_of_ne updated (CountersUpdate.attr_of_releaseAttr ?_ ?_))
    · exact fun decision expected same => releases ⟨decision, expected, same⟩
    · simp [CountersUpdate.releaseAttrs]

end Writers

section Line

variable {d : Deployment} {policy : RoomPolicy} {origin db : Db} {log older : List RoomEntry}
  {entry : RoomEntry}

/-- A batch that claims a block has seen the event opened. -/
theorem Logged.opened_of_claims (logged : Logged d policy origin older entry) {n : ℕ}
    (call : entry.exchange.call = .updateCounters (.claimBlock n)) : entry.before.Opened := by
  have lawful := logged.lawful
  rw [call] at lawful
  obtain ⟨item, read, opened⟩ := lawful.opened
  obtain ⟨old, held, found⟩ := logged.earlier.read_counters read
  refine (held.grows logged.earlier).isOpened (opened_of_openOutputs (d := d) ?_)
  rwa [Deployment.view, found]

/-- What one call does to the end of the line. -/
theorem Logged.line_cases (logged : Logged d policy origin older entry)
    (counted : LineCounted entry.before) :
    entry.after.attr "queue_counter" = entry.before.attr "queue_counter" ∨
      entry.after.Opened ∧ ∃ n : ℕ, entry.after.attr "queue_counter" = some (.N n) ∧
        entry.before.line ≤ n := by
  rcases logged.effect.counters_cases with same | ⟨update, item, call, updated, after⟩
  · exact .inl (by rw [Db.attr, Db.attr, same])
  · simp only [Db.attr, after, Option.getD_some]
    rcases updateItem_line updated with same | ⟨n, rfl, added⟩ | ⟨values, rfl, reset⟩
    · exact .inl same
    · obtain ⟨line, stored⟩ := counted.whole
      have grown : entry.after.Opened := logged.grows.isOpened (logged.opened_of_claims call)
      have total : numberOf entry.before.counters "queue_counter" = line := number_of_attr stored
      rw [total, ← Nat.cast_add] at added
      refine .inr ⟨grown, line + n, added, ?_⟩
      rw [line_of_attr stored]
      exact Nat.cast_le.mpr (Nat.le_add_right line n)
    · -- the guard of the open holds only while the line is still empty
      have opens := updateItem_holds updated
      simp only [CountersUpdate.condition, openGuard, Condition.holds, Bool.and_eq_true,
        Option.isNone_iff_eq_none] at opens
      have unopened : ¬ entry.before.Opened := fun opened => opened opens.1
      obtain ⟨_, counts, seed, -, -, published⟩ := logged.published_of_opens call updated after
      refine .inr ⟨published.opened, values.participantCount, reset, ?_⟩
      rw [line_of_attr (counted.unopened unopened)]
      exact Nat.cast_nonneg _

theorem RoomTrace.lineCounted (seeded : Seeded origin) (trace : RoomTrace d policy origin log db) :
    LineCounted db := by
  refine trace.invariant LineCounted ⟨⟨0, seeded.queue⟩, fun _ => seeded.queue⟩ ?_
  intro entry older logged before
  have now := before _ ⟨[], older, rfl, logged.earlier⟩
  rcases logged.line_cases now with same | ⟨opened, n, stored, -⟩
  · refine ⟨same ▸ now.whole, fun unopened => ?_⟩
    rw [same]
    exact now.unopened fun opened => unopened (logged.grows.isOpened opened)
  · exact ⟨⟨n, stored⟩, fun unopened => absurd opened unopened⟩

/-- **The line only grows.** -/
theorem Logged.line_le (seeded : Seeded origin) (logged : Logged d policy origin older entry) :
    entry.before.line ≤ entry.after.line := by
  rcases logged.line_cases (logged.earlier.lineCounted seeded) with same | ⟨-, n, stored, grown⟩
  · obtain ⟨line, stored⟩ := (logged.earlier.lineCounted seeded).whole
    rw [line_of_attr stored, line_of_attr (same.trans stored)]
  · rwa [line_of_attr stored]

theorem RoomTrace.line_grows (seeded : Seeded origin) {newer : List RoomEntry} {start : Db}
    (trace : RoomTrace d policy origin (newer ++ older) db)
    (earlier : RoomTrace d policy origin older start) : start.line ≤ db.line := by
  refine Trace.relates (fun old new => old.line ≤ new.line) (fun _ => le_rfl)
    (fun _ _ _ => le_trans) earlier trace fun entry member => ?_
  obtain ⟨_, _, -, logged⟩ := trace.logged_of_mem (List.mem_append_left _ member)
  exact logged.line_le seeded

theorem Held.line_le (seeded : Seeded origin) {old : Db} (held : Held d policy origin log old)
    (trace : RoomTrace d policy origin log db) : old.line ≤ db.line := by
  obtain ⟨newer, oldest, rfl, earlier⟩ := held
  exact trace.line_grows seeded earlier

theorem Held.lineCounted (seeded : Seeded origin) {old : Db} (held : Held d policy origin log old) :
    LineCounted old := by
  obtain ⟨newer, oldest, rfl, earlier⟩ := held
  exact earlier.lineCounted seeded

/-- The line of an opened event starts behind its cohort. -/
def StartsBehind (d : Deployment) (db : Db) : Prop :=
  ∀ outputs, (d.view db).openOutputs = some outputs →
    (outputs.offsets.participantCount : ℚ) ≤ db.line

/-- The open resets the line to the size it publishes. -/
theorem line_of_writeOpen {values : OpenValues} {item : Item} {db : Db}
    (updated : updateItem db.counters (CountersUpdate.writeOpen values).condition
      (CountersUpdate.writeOpen values).clauses = .updated item) {db' : Db}
    (after : db'.counters = some item) : StartsBehind d db' := by
  intro outputs parsed
  rw [Deployment.view, after, Option.getD_some] at parsed
  simp only [Counters.openOutputs, Option.bind_eq_bind, Option.bind_eq_some_iff,
    Option.pure_def, Option.some.injEq] at parsed
  obtain ⟨seed, -, offsets, -, count, read, rfl⟩ := parsed
  have size : item "participant_count" = some (.N values.participantCount) :=
    updateItem_set [_] updated (by simp [Clause.attr])
  have line : item "queue_counter" = some (.N values.participantCount) :=
    updateItem_set [_, _] updated (by simp [Clause.attr])
  have same := (eq_N_of_num read).symm.trans (size.trans line.symm)
  have stored : db'.attr "queue_counter" = some (.N count) := by
    rw [Db.attr, after, Option.getD_some]
    exact same.symm
  exact (line_of_attr stored).ge

theorem RoomTrace.startsBehind (seeded : Seeded origin)
    (trace : RoomTrace d policy origin log db) : StartsBehind d db := by
  refine trace.invariant (StartsBehind d) ?_ fun entry older logged before => ?_
  · intro outputs parsed
    have opened : origin.Opened := opened_of_openOutputs (by rw [parsed]; nofun)
    exact absurd (seeded.unopened _ (by simp [CountersUpdate.openAttrs])) opened
  intro outputs parsed
  by_cases opened : entry.before.Opened
  · rw [openOutputs_of_attrs (logged.grows.opened opened)] at parsed
    exact (before _ ⟨[], older, rfl, logged.earlier⟩ outputs parsed).trans (logged.line_le seeded)
  · have openedAfter : entry.after.Opened := opened_of_openOutputs (by rw [parsed]; nofun)
    rcases logged.effect.counters_cases with same | ⟨update, item, call, updated, after⟩
    · rw [Db.Opened, Db.attr, same] at openedAfter
      exact absurd openedAfter opened
    · by_cases opens : ∃ values, update = .writeOpen values
      · obtain ⟨values, rfl⟩ := opens
        exact line_of_writeOpen updated after outputs parsed
      · have same := attr_of_updated updated after (fun values is => opens ⟨values, is⟩)
          "shuffle_seed" (by simp [CountersUpdate.openAttrs])
        rw [Db.Opened, same] at openedAfter
        exact absurd openedAfter opened

/-! ## The cursor -/

/-- A reading of a counter that holds a natural number never exceeds it. -/
theorem reading_le {item : Item} {name : String} {n : ℕ} (stored : item name = some (.N n)) :
    (num item name).getD 0 ≤ n := by
  rw [num, stored, Option.bind_some, AttributeValue.asUnsigned, AttributeValue.asN,
    Option.bind_some, AttributeValue.unsignedOf_natCast]
  split
  · exact le_rfl
  · exact Nat.zero_le n

/-- A release computed from an item stays within one of the line on it, or where it was. -/
theorem released_le {item : Item} {line : ℕ} (stored : item "queue_counter" = some (.N line))
    (arrivals : Shard → ℕ) (prev : Option NoShowState) (now : ℕ) :
    (computeRelease f64 (controllerStateOf item arrivals).inputs prev now).nextServingCounter ≤
      max (line + 1) (controllerStateOf item arrivals).inputs.servingCounter := by
  refine (computeRelease_bounds _ prev now).2.trans (max_le_max_right _ ?_)
  calc saturatingAdd (controllerStateOf item arrivals).inputs.queueCounter 1
      ≤ (controllerStateOf item arrivals).inputs.queueCounter + 1 := saturatingAdd_le _ _
    _ ≤ line + 1 := Nat.add_le_add_right (reading_le stored) 1

theorem controllerStateOf_serving_lt (item : Item) (arrivals : Shard → ℕ) :
    (controllerStateOf item arrivals).inputs.servingCounter < u64Bound := by
  simp only [controllerStateOf]
  cases read : num item "serving_counter" with
  | none => exact Nat.two_pow_pos 64
  | some n => exact num_lt read

/-- A released cursor is a `u64`. -/
theorem released_lt (item : Item) (arrivals : Shard → ℕ) (prev : Option NoShowState) (now : ℕ) :
    (computeRelease f64 (controllerStateOf item arrivals).inputs prev now).nextServingCounter <
      u64Bound :=
  lt_of_le_of_lt (computeRelease_bounds _ prev now).2
    (max_lt (saturatingAdd_lt _ _) (controllerStateOf_serving_lt item arrivals))

/-- What one call does to the cursor. -/
theorem Logged.cursor_cases (seeded : Seeded origin) (logged : Logged d policy origin older entry)
    (now : CursorBounded entry.before) :
    entry.after.attr "serving_counter" = entry.before.attr "serving_counter" ∨
      ∃ n : ℕ, n < u64Bound ∧ entry.after.attr "serving_counter" = some (.N n) ∧
        entry.before.cursor ≤ n ∧ (n : ℚ) ≤ entry.before.line + 1 := by
  rcases logged.effect.counters_cases with same | ⟨update, item, call, updated, after⟩
  · exact .inl (by rw [Db.attr, Db.attr, same])
  simp only [Db.attr, after, Option.getD_some]
  rcases updateItem_cursor updated with same | ⟨decision, expected, rfl, guard, moved⟩
  · exact .inl same
  have lawful := logged.lawful
  rw [call] at lawful
  obtain ⟨time, -, readItem, arrivals, -, reads, -, -, rfl, rfl⟩ := lawful
  -- the guard says that the cursor is still the one that was read
  have still : entry.before.cursor = (controllerStateOf readItem arrivals).inputs.servingCounter := by
    obtain ⟨cursor, -, stored⟩ := now.whole
    rcases guard with absent | same
    · rw [Db.attr, absent] at stored
      cases stored
    · exact cursor_of_attr same
  -- the line that was read was no longer than it is now
  obtain ⟨old, held, found⟩ := logged.earlier.read_counters reads.counters
  obtain ⟨line, stored⟩ := (held.lineCounted seeded).whole
  have longer := held.line_le seeded logged.earlier
  rw [line_of_attr stored] at longer
  rw [Db.attr, found, Option.getD_some] at stored
  refine .inr ⟨_, released_lt readItem arrivals (storedNoShow readItem) time, moved, ?_, ?_⟩
  · rw [still]
    exact Nat.cast_le.mpr (computeRelease_bounds _ _ _).1
  · have within : ((computeRelease f64 (controllerStateOf readItem arrivals).inputs
        (storedNoShow readItem) time).nextServingCounter : ℚ) ≤ max ((line : ℚ) + 1)
          (controllerStateOf readItem arrivals).inputs.servingCounter := by
      exact_mod_cast released_le stored arrivals (storedNoShow readItem) time
    rw [← still] at within
    exact within.trans (max_le (by linarith) now.bounded)

/-- **The cursor stays within one of the end of the line.** -/
theorem RoomTrace.cursor (seeded : Seeded origin) (trace : RoomTrace d policy origin log db) :
    CursorBounded db := by
  refine trace.invariant CursorBounded ?_ fun entry older logged before => ?_
  · refine ⟨⟨0, Nat.two_pow_pos 64, seeded.serving⟩, ?_⟩
    rw [cursor_of_attr seeded.serving, line_of_attr seeded.queue]
    norm_num
  · have now := before _ ⟨[], older, rfl, logged.earlier⟩
    have longer := logged.line_le seeded
    rcases logged.cursor_cases seeded now with same | ⟨n, inside, stored, -, within⟩
    · obtain ⟨cursor, inside, stored⟩ := now.whole
      have bounded := now.bounded
      refine ⟨⟨cursor, inside, same.trans stored⟩, ?_⟩
      rw [cursor_of_attr stored] at bounded
      rw [cursor_of_attr (same.trans stored)]
      linarith
    · refine ⟨⟨n, inside, stored⟩, ?_⟩
      rw [cursor_of_attr stored]
      linarith

/-- **The cursor only grows.** -/
theorem Logged.cursor_le (seeded : Seeded origin) (logged : Logged d policy origin older entry) :
    entry.before.cursor ≤ entry.after.cursor := by
  have now := logged.earlier.cursor seeded
  rcases logged.cursor_cases seeded now with same | ⟨n, -, stored, grown, -⟩
  · obtain ⟨cursor, -, stored⟩ := now.whole
    rw [cursor_of_attr stored, cursor_of_attr (same.trans stored)]
  · rwa [cursor_of_attr stored]

theorem RoomTrace.cursor_grows (seeded : Seeded origin) {newer : List RoomEntry} {start : Db}
    (trace : RoomTrace d policy origin (newer ++ older) db)
    (earlier : RoomTrace d policy origin older start) : start.cursor ≤ db.cursor := by
  refine Trace.relates (fun old new => old.cursor ≤ new.cursor) (fun _ => le_rfl)
    (fun _ _ _ => le_trans) earlier trace fun entry member => ?_
  obtain ⟨_, _, -, logged⟩ := trace.logged_of_mem (List.mem_append_left _ member)
  exact logged.cursor_le seeded

end Line

end WaitingRoom
