import WaitingRoom.Protocol.Blocks

/-!
# No admission credit is banked

The cursor never runs more than one ahead of the end of the line and never moves back, so a
position is never behind the cursor when it is handed out (`no_banked_credit`).
-/

set_option autoImplicit false

namespace WaitingRoom

open Dynamo Concurrency

section Credit

variable {d : Deployment} {policy : RoomPolicy} {origin : Db} {older : List RoomEntry}
  {entry : RoomEntry}

/-- A claimed position is not behind the cursor. -/
theorem Logged.cursor_le_position (seeded : Seeded origin)
    (logged : Logged d policy origin older entry) {n stop index : ℕ} {item : Item}
    (same : entry.exchange = liveClaim n item) (claimed : num item "queue_counter" = some stop)
    (room : index < n) :
    entry.before.cursor ≤ (saturatingAdd (blockStart stop n) index : ℕ) := by
  obtain ⟨-, start, -⟩ := logged.liveBlock same claimed
  obtain ⟨line, stored⟩ := (logged.earlier.lineCounted seeded).whole
  have bounded := (logged.earlier.cursor seeded).bounded
  rw [line_of_attr stored] at start bounded
  have sum : line + n = stop := by exact_mod_cast start
  have placed : line + 1 ≤ saturatingAdd (blockStart stop n) index := by
    rw [blockPosition_eq (by omega) (num_lt claimed) room]
    omega
  calc entry.before.cursor ≤ (line : ℚ) + 1 := bounded
    _ = ((line + 1 : ℕ) : ℚ) := by push_cast; ring
    _ ≤ (saturatingAdd (blockStart stop n) index : ℕ) := Nat.cast_le.mpr placed

end Credit

/-- **No admission credit is banked.** In every reachable state the cursor is at most one past
the end of the line, it never moves back, and every position a claim hands out is at or past
the cursor at the moment of the claim. -/
theorem no_banked_credit {d : Deployment} {origin : Db} (seeded : Seeded origin) {c : Room}
    (run : RoomRun d .free origin c) :
    c.state.cursor ≤ c.state.line + 1 ∧
      (∀ later, (room d).Reaches .free c later → c.state.cursor ≤ later.state.cursor) ∧
      ∀ claim ∈ c.log, ∀ n item stop, claim.exchange = liveClaim n item →
        num item "queue_counter" = some stop → ∀ index < n,
          claim.before.cursor ≤ (saturatingAdd (blockStart stop n) index : ℕ) := by
  refine ⟨(run.trace.cursor seeded).bounded, fun later goesOn => ?_, ?_⟩
  · obtain ⟨newer, -, trace⟩ := run.extend goesOn
    exact trace.cursor_grows seeded run.trace
  · intro claim member n item stop same claimed index room
    obtain ⟨_, _, -, logged⟩ := run.trace.logged_of_mem member
    exact logged.cursor_le_position seeded same claimed room

/-- An open, a live join and a pass that releases all it may. -/
theorem no_banked_credit_sample : ∃ c : Room, RoomRun Sample.deployment .free Sample.origin c ∧
    0 < c.state.cursor ∧ c.state.cursor ≤ c.state.line + 1 := by
  obtain ⟨c, run, released⟩ := System.exists_reaches_of_run
    (show ((room Sample.deployment).run .free (.initial Sample.origin)
      (.start (.openEvent Sample.seed .ascending) ::
        .start (.joinBatch Sample.shard [⟨"m1", "bob"⟩]) :: .start (.controllerPass 100 .ascending) ::
          (Sample.commits 0 11 ++ Sample.commits 1 3 ++ Sample.commits 2 12))).any
        (fun c => decide (0 < c.state.cursor)) by decide +kernel)
  exact ⟨c, run, of_decide_eq_true released, (no_banked_credit Sample.origin_seeded run).1⟩

end WaitingRoom
