import WaitingRoom.Protocol.Counters

/-!
# What a landed release leaves

Five attributes of the `Counters` item are written by the controller and by nobody else: the
cursor and what the next pass measures with. Every call leaves all five alone or is a release
that landed (`Logged.release_cases`), and a release that landed moved the cursor from where its
pass had read it, whatever other passes did in between (`Logged.moves`).
-/

set_option autoImplicit false

namespace WaitingRoom

open Dynamo Concurrency

/-- A number of the `Counters` item as the controller reads it. -/
def Db.reading (db : Db) (name : String) : ℕ := (num (db.counters.getD .empty) name).getD 0

/-- The cursor as the controller reads it. -/
abbrev Db.servingCounter (db : Db) : ℕ := db.reading "serving_counter"

/-- A release that landed. -/
structure Landed (entry : RoomEntry) (decision : ReleaseDecision) (expected : ℕ) : Prop where
  call : entry.exchange.call = .updateCounters (.writeRelease decision expected)
  guard : entry.before.attr "serving_counter" = none ∨
    entry.before.attr "serving_counter" = some (.N expected)
  cursor : entry.after.attr "serving_counter" = some (.N decision.nextServingCounter)
  lastServing : entry.after.attr "last_serving_counter" =
    some (.N decision.previousServingCounter)
  lastArrivals : entry.after.attr "last_arrivals_total" = some (.N decision.arrivalsTotal)
  noShow : entry.after.attr "no_show_rate" = some (.N decision.noShow.smoothedRate)
  lastOpenPass : entry.after.attr "last_open_pass_at" = some (.N decision.lastOpenPassAt)

section Releases

variable {d : Deployment} {policy : RoomPolicy} {origin db : Db} {log older : List RoomEntry}
  {entry : RoomEntry} {decision : ReleaseDecision} {expected : ℕ}

theorem reading_of_attr {name : String} {n : ℕ} (stored : db.attr name = some (.N n))
    (inside : n < u64Bound) : db.reading name = n := by
  rw [Db.attr] at stored
  rw [Db.reading, num_of_natCast stored inside, Option.getD_some]

theorem reading_congr {db db' : Db} {name : String} (same : db.attr name = db'.attr name) :
    db.reading name = db'.reading name := by
  simp only [Db.attr] at same
  simp only [Db.reading, num, same]

theorem reading_lt (name : String) : db.reading name < u64Bound := by
  rw [Db.reading]
  cases read : num (db.counters.getD .empty) name with
  | none => exact Nat.two_pow_pos 64
  | some n => exact num_lt read

/-- What a release writes. -/
theorem landed_of_updated {item : Item}
    (call : entry.exchange.call = .updateCounters (.writeRelease decision expected))
    (updated : updateItem entry.before.counters (CountersUpdate.writeRelease decision expected).condition
      (CountersUpdate.writeRelease decision expected).clauses = .updated item)
    (after : entry.after.counters = some item) : Landed entry decision expected := by
  have written : ∀ name, entry.after.attr name = item name := fun name => by
    rw [Db.attr, after, Option.getD_some]
  have guard := updateItem_holds updated
  simp only [CountersUpdate.condition, Condition.holds, Bool.or_eq_true,
    Option.isNone_iff_eq_none] at guard
  refine ⟨call, guard.imp id Condition.eq_of_equals_N, ?_, ?_, ?_, ?_, ?_⟩
  · exact (written _).trans (updateItem_set [] updated (by simp [Clause.attr]))
  · exact (written _).trans (updateItem_set [_] updated (by simp [Clause.attr]))
  · exact (written _).trans (updateItem_set [_, _] updated (by simp [Clause.attr]))
  · exact (written _).trans (updateItem_set [_, _, _] updated (by simp [Clause.attr]))
  · exact (written _).trans (updateItem_set [_, _, _, _] updated (by simp))

/-- **A call leaves the cursor and the measurement alone or is a release that landed.** -/
theorem Logged.release_cases (logged : Logged d policy origin older entry) :
    (∀ name ∈ CountersUpdate.releaseAttrs, entry.after.attr name = entry.before.attr name) ∨
      ∃ decision expected, Landed entry decision expected := by
  rcases logged.effect.counters_cases with same | ⟨update, item, call, updated, after⟩
  · exact .inl fun name _ => by rw [Db.attr, Db.attr, same]
  by_cases releases : ∃ decision expected, update = .writeRelease decision expected
  · obtain ⟨decision, expected, rfl⟩ := releases
    exact .inr ⟨decision, expected, landed_of_updated call updated after⟩
  · refine .inl fun name member => ?_
    rw [Db.attr, after, Option.getD_some]
    exact updateItem_of_ne updated (CountersUpdate.attr_of_releaseAttr
      (fun decision expected same => releases ⟨decision, expected, same⟩) member)

/-- A release that is answered with the new item has landed. -/
theorem Logged.landed_of_answer (logged : Logged d policy origin older entry) {item : Item}
    (same : entry.exchange = answered (.updateCounters (.writeRelease decision expected))
      (.ok (some item))) : Landed entry decision expected := by
  obtain ⟨updated, after⟩ := perform_updateCounters_some (logged.committed same rfl nofun)
  exact landed_of_updated (by rw [same]) updated (congrArg Db.counters after)

/-- A release that is answered with a failed condition changed nothing. -/
theorem Logged.unchanged_of_lost (logged : Logged d policy origin older entry)
    (same : entry.exchange = answered (.updateCounters (.writeRelease decision expected))
      (.ok none)) : entry.after = entry.before := by
  have performed := logged.committed same rfl nofun
  rcases perform_updateCounters (.writeRelease decision expected) entry.before with
    unchanged | ⟨item, -, written⟩
  · exact (congrArg Prod.snd performed).trans unchanged
  · rw [written] at performed
    cases Except.ok.inj (congrArg Prod.fst performed)

/-! ## Where the cursor moves from -/

/-- Nobody removes the cursor. -/
theorem Held.serving_present {old : Db} (held : Held d policy origin log old)
    (trace : RoomTrace d policy origin log db) (present : old.attr "serving_counter" ≠ none) :
    db.attr "serving_counter" ≠ none := by
  obtain ⟨newer, oldest, rfl, earlier⟩ := held
  refine Trace.relates (fun a b : Db => a.attr "serving_counter" ≠ none →
    b.attr "serving_counter" ≠ none) (fun _ there => there) ?_ earlier trace ?_ present
  · intro a b c first second there
    exact second (first there)
  intro later member
  obtain ⟨_, _, -, logged⟩ := trace.logged_of_mem (List.mem_append_left _ member)
  intro there
  rcases logged.release_cases with same | ⟨decision, expected, landed⟩
  · rwa [same _ (by simp [CountersUpdate.releaseAttrs])]
  · rw [landed.cursor]
    exact Option.some_ne_none _

/-- What a pass read, and when. -/
theorem Logged.pass_reads (logged : Logged d policy origin older entry)
    (landed : Landed entry decision expected) :
    ∃ now order item arrivals old, entry.job = .controllerPass now order ∧
      PassReads (history older entry.thread) item arrivals ∧
      decision = computeRelease f64 (controllerStateOf item arrivals).inputs (storedNoShow item) now ∧
      expected = (controllerStateOf item arrivals).inputs.servingCounter ∧
      Held d policy origin older old ∧ old.counters = some item := by
  have lawful := logged.lawful
  rw [landed.call] at lawful
  obtain ⟨now, order, item, arrivals, job, reads, -, -, computed, same⟩ := lawful
  obtain ⟨old, held, found⟩ := logged.earlier.read_counters reads.counters
  exact ⟨now, order, item, arrivals, old, job, reads, computed, same, held, found⟩

/-- **A release that landed moved the cursor from where its pass had read it.** -/
theorem Logged.moves (logged : Logged d policy origin older entry)
    (landed : Landed entry decision expected) :
    entry.before.servingCounter = expected ∧ decision.previousServingCounter = expected ∧
      entry.after.servingCounter = entry.before.servingCounter + decision.release := by
  obtain ⟨now, order, item, arrivals, old, -, -, rfl, same, held, found⟩ := logged.pass_reads landed
  have read : old.servingCounter = expected := by
    rw [same, Db.servingCounter, Db.reading, found]
    rfl
  have before : entry.before.servingCounter = expected := by
    rcases landed.guard with absent | stored
    · -- it was absent when it was read as well
      have never : old.attr "serving_counter" = none := by
        by_contra present
        exact held.serving_present logged.earlier present absent
      rw [← read]
      exact reading_congr (absent.trans never.symm)
    · exact reading_of_attr stored (read ▸ reading_lt _)
  have after := reading_of_attr landed.cursor (released_lt item arrivals (storedNoShow item) now)
  refine ⟨before, same.symm, ?_⟩
  rw [Db.servingCounter, after, before, same, computeRelease_release]

end Releases

end WaitingRoom
