import WaitingRoom.Concurrency.Counting
import WaitingRoom.Protocol.Releases

/-!
# Releases are conserved

Passes overlap, carry stale snapshots into their compare-and-set, and race the claims, the open
and the operators. Whatever they do, the cursor has moved by what the passes that returned report
to have released (`releases_conserved`).
-/

set_option autoImplicit false

namespace WaitingRoom

open Dynamo Concurrency

/-- What a thread that returned reports to have released. -/
def released (c : Room) (thread : ℕ) : ℕ :=
  match c.result thread with
  | some (.controllerPass _ _, .pass (.ok (.ran released))) => released
  | _ => 0

/-- What a call is told to have released. -/
def releasedOf : Exchange Tables → ℕ
  | ⟨.updateCounters (.writeRelease decision _), answer⟩ =>
      match answer with
      | .ok attributes => releasedBy decision attributes
      | .error _ => 0
  | _ => 0

/-- A release that is answered with an error did not land. -/
def ErrorsDidNotLand (log : List RoomEntry) : Prop :=
  ∀ entry ∈ log, ∀ decision expected error,
    entry.exchange = answered (.updateCounters (.writeRelease decision expected)) (.error error) →
      entry.after = entry.before

section Conserved

variable {d : Deployment} {policy : RoomPolicy} {origin db : Db} {log older : List RoomEntry}
  {entry : RoomEntry} {calls : History}

theorem ErrorsDidNotLand.tail (noLanding : ErrorsDidNotLand (entry :: log)) :
    ErrorsDidNotLand log := fun later member => noLanding later (List.mem_cons_of_mem _ member)

theorem releasedOf_of_not_release {exchange : Exchange Tables}
    (other : exchange.call.isRelease = false) : releasedOf exchange = 0 := by
  obtain ⟨call, answer⟩ := exchange
  cases call with
  | updateCounters update =>
      cases update with
      | writeRelease decision expected => cases other
      | _ => rfl
  | _ => rfl

theorem ReleasesNothing.sum_eq_zero (nothing : ReleasesNothing calls) :
    (calls.map releasedOf).sum = 0 := by
  refine List.sum_eq_zero fun amount member => ?_
  obtain ⟨exchange, inside, rfl⟩ := List.mem_map.mp member
  exact releasedOf_of_not_release (nothing exchange inside)

/-- What a pass reports is what its calls were told. -/
theorem PassReport.sum_eq {result : Except StoreError PassOutcome}
    (report : PassReport calls result) :
    (calls.map releasedOf).sum = match result with
      | .ok (.ran released) => released
      | _ => 0 := by
  rcases result with error | (phase | control | released)
  · obtain ⟨older, nothing, rfl | ⟨decision, expected, error, rfl⟩⟩ := report
    · exact nothing.sum_eq_zero
    · rw [List.map_cons, List.sum_cons, nothing.sum_eq_zero]
      rfl
  · exact ReleasesNothing.sum_eq_zero report
  · exact ReleasesNothing.sum_eq_zero report
  · obtain ⟨decision, expected, attributes, older, nothing, rfl, rfl⟩ := report
    rw [List.map_cons, List.sum_cons, nothing.sum_eq_zero]
    rfl

/-- One call moves the cursor by what it is told to have released. -/
theorem Logged.serving_eq (logged : Logged d policy origin older entry)
    (noLanding : ErrorsDidNotLand (entry :: older)) :
    entry.after.servingCounter = entry.before.servingCounter + releasedOf entry.exchange := by
  by_cases releases : ∃ decision expected,
      entry.exchange.call = .updateCounters (.writeRelease decision expected)
  · obtain ⟨decision, expected, call⟩ := releases
    obtain ⟨answer, same⟩ : ∃ answer, entry.exchange =
        answered (.updateCounters (.writeRelease decision expected)) answer := by
      rw [← call]
      exact ⟨entry.exchange.answer, rfl⟩
    rw [same]
    rcases answer with error | (_ | item)
    · rw [noLanding entry List.mem_cons_self decision expected error same]
      rfl
    · rw [logged.unchanged_of_lost same]
      rfl
    · exact (logged.moves (logged.landed_of_answer same)).2.2
  · rcases logged.release_cases with same | ⟨decision, expected, landed⟩
    · have other : entry.exchange.call.isRelease = false := by
        rw [Bool.eq_false_iff]
        intro release
        exact releases (Call.isRelease_iff.mp release)
      rw [releasedOf_of_not_release other]
      exact reading_congr (same _ (by simp [CountersUpdate.releaseAttrs]))
    · exact absurd ⟨decision, expected, landed.call⟩ releases

/-- The cursor has moved by what the calls were told to have released. -/
theorem RoomTrace.serving_eq (trace : RoomTrace d policy origin log db)
    (noLanding : ErrorsDidNotLand log) :
    db.servingCounter =
      origin.servingCounter + (log.map fun entry => releasedOf entry.exchange).sum := by
  revert noLanding
  refine trace.rule (motive := fun log db => ErrorsDidNotLand log → db.servingCounter =
    origin.servingCounter + (log.map fun entry => releasedOf entry.exchange).sum) ?_ ?_
  · intro _
    rfl
  · intro entry older logged before noLanding
    rw [logged.serving_eq noLanding, before [] older _ rfl logged.earlier noLanding.tail,
      List.map_cons, List.sum_cons]
    omega

/-- Only a pass releases. -/
theorem RoomTrace.releasesNothing (trace : RoomTrace d policy origin log db) {thread : ℕ}
    (other : ∀ entry ∈ log, entry.thread = thread → ∀ now order,
      entry.job ≠ .controllerPass now order) : ReleasesNothing (history log thread) := by
  intro exchange member
  obtain ⟨newer, entry, older, rfl, mine, rfl, logged⟩ := trace.logged_of_history member
  rw [Bool.eq_false_iff]
  intro release
  obtain ⟨decision, expected, call⟩ := Call.isRelease_iff.mp release
  have lawful := logged.lawful
  rw [call] at lawful
  obtain ⟨now, order, -, -, job, -⟩ := lawful
  exact other entry (by simp) mine now order job

/-- What a thread reports is what its calls were told. -/
theorem RoomRun.released_eq {c : Room} (run : RoomRun d policy origin c) {thread : ℕ}
    (started : thread < c.threads.length) :
    released c thread = ((history c.log thread).map releasedOf).sum := by
  obtain ⟨⟨job, program⟩, found⟩ : ∃ running, c.threads[thread]? = some running :=
    ⟨_, List.getElem?_eq_getElem started⟩
  by_cases pass : ∃ now order, job = .controllerPass now order
  · obtain ⟨now, order, rfl⟩ := pass
    cases program with
    | done outcome =>
        obtain ⟨result, rfl, report⟩ := run.report found
        rw [report.sum_eq, released, Config.result_eq_some.mpr found]
        rcases result with error | (phase | control | amount) <;> rfl
    | call request next =>
        -- a pass that is still running has not released
        have running := (System.Reaches.obeys run (program_releases_last d)).1 thread _ _ found
        have nothing := (obeys_call.mp running).1.2 now order rfl
        rw [nothing.sum_eq_zero, released, Config.result, found]
  · have nothing : ReleasesNothing (history c.log thread) := by
      refine run.trace.releasesNothing fun entry member mine now order same => pass ?_
      have jobs := System.Reaches.job_of_entry run member
      rw [mine, Config.jobs, List.getElem?_map, found] at jobs
      exact ⟨now, order, (Option.some.inj jobs).trans same⟩
    rw [nothing.sum_eq_zero, released]
    split
    · next now order amount result =>
        have same := Config.result_eq_some.mp result
        rw [found] at same
        obtain ⟨rfl, -⟩ := Thread.mk.inj (Option.some.inj same)
        exact absurd ⟨now, order, rfl⟩ pass
    · rfl

/-- A pass that released anyone moved the cursor by that much from the value it had read. -/
theorem RoomRun.moved_of_released {c : Room} (run : RoomRun d policy origin c) {thread : ℕ}
    (positive : 0 < released c thread) :
    ∃ entry ∈ c.log, ∃ item, entry.thread = thread ∧
      answered (.getCounters true) (.ok (some item)) ∈ history c.log thread ∧
      entry.before.servingCounter = (num item "serving_counter").getD 0 ∧
      entry.after.servingCounter = (num item "serving_counter").getD 0 + released c thread := by
  obtain ⟨now, order, amount, result⟩ : ∃ now order amount,
      c.result thread = some (.controllerPass now order, .pass (.ok (.ran amount))) := by
    rw [released] at positive
    split at positive
    · next now order amount result => exact ⟨now, order, amount, result⟩
    · exact absurd positive (Nat.lt_irrefl 0)
  have same : released c thread = amount := by rw [released, result]
  rw [same] at positive ⊢
  obtain ⟨_, outcome, report⟩ := run.report (Config.result_eq_some.mp result)
  obtain rfl := Outcome.pass.inj outcome
  obtain ⟨decision, expected, attributes, earlier, -, calls, rfl⟩ := report
  obtain ⟨item, rfl⟩ : ∃ item, attributes = some item := by
    cases attributes with
    | none => exact absurd positive (Nat.lt_irrefl 0)
    | some item => exact ⟨item, rfl⟩
  obtain ⟨newer, entry, older, whole, rfl, exchange, -, rfl⟩ :=
    exists_split_of_history (calls.trans (List.nil_append _).symm)
  have trace := run.trace
  rw [whole] at trace
  have landed := trace.logged.landed_of_answer exchange
  obtain ⟨before, -, after⟩ := trace.logged.moves landed
  obtain ⟨-, -, read, arrivals, -, -, reads, -, rfl, -, -⟩ := trace.logged.pass_reads landed
  refine ⟨entry, by rw [whole]; simp, read, rfl, ?_, before, ?_⟩
  · rw [calls]
    exact List.mem_cons_of_mem _ reads.counters
  · rw [after, before]
    rfl

end Conserved

/-- **Releases are conserved under races.** The cursor has moved by what the passes that ran
report, a pass that released anyone moved it by that much from the value it had read, and what a
landed release leaves to measure with is its own decision. -/
theorem releases_conserved {d : Deployment} {origin : Db} {c : Room}
    (run : RoomRun d .free origin c) (noLanding : ErrorsDidNotLand c.log) :
    c.state.servingCounter = origin.servingCounter +
        ∑ thread ∈ Finset.range c.threads.length, released c thread ∧
    (∀ thread, 0 < released c thread → ∃ entry ∈ c.log, ∃ item, entry.thread = thread ∧
      answered (.getCounters true) (.ok (some item)) ∈ history c.log thread ∧
      entry.before.servingCounter = (num item "serving_counter").getD 0 ∧
      entry.after.servingCounter = (num item "serving_counter").getD 0 + released c thread) ∧
    ∀ newer entry older, c.log = newer ++ entry :: older →
      ∀ decision expected item, entry.exchange =
          answered (.updateCounters (.writeRelease decision expected)) (.ok (some item)) →
        ∃ now order item arrivals, entry.job = .controllerPass now order ∧
          PassReads (history older entry.thread) item arrivals ∧
          decision = computeRelease f64 (controllerStateOf item arrivals).inputs (storedNoShow item) now ∧
          entry.after.attr "serving_counter" = some (.N decision.nextServingCounter) ∧
          entry.after.attr "last_serving_counter" = some (.N decision.previousServingCounter) ∧
          entry.after.attr "last_arrivals_total" = some (.N decision.arrivalsTotal) ∧
          entry.after.attr "no_show_rate" = some (.N decision.noShow.smoothedRate) ∧
          entry.after.attr "last_open_pass_at" = some (.N decision.lastOpenPassAt) := by
  refine ⟨?_, ?_, ?_⟩
  · have inside := (System.Reaches.obeys run (program_obeys d)).2
    rw [run.trace.serving_eq noLanding, sum_log releasedOf c.log inside]
    congr 1
    exact Finset.sum_congr rfl fun thread member =>
      (run.released_eq (Finset.mem_range.mp member)).symm
  · intro thread positive
    exact run.moved_of_released positive
  · intro newer entry older whole decision expected item same
    have trace := run.trace
    rw [whole] at trace
    have landed := trace.logged.landed_of_answer same
    obtain ⟨now, order, read, arrivals, -, job, reads, computed, -, -, -⟩ :=
      trace.logged.pass_reads landed
    exact ⟨now, order, read, arrivals, job, reads, computed, landed.cursor, landed.lastServing,
      landed.lastArrivals, landed.noShow, landed.lastOpenPass⟩

/-- Two passes race over one reading, and one of them releases. -/
theorem releases_conserved_sample : ∃ c : Room, RoomRun Sample.deployment .free Sample.origin c ∧
    c.state.servingCounter = 2 ∧
    ∑ thread ∈ Finset.range c.threads.length, released c thread = 2 := by
  obtain ⟨c, run, good⟩ := System.exists_reaches_of_run
    (show ((room Sample.deployment).run .free (.initial Sample.origin)
      (.start (.joinBatch Sample.shard [⟨"m1", "alice"⟩]) ::
        .start (.openEvent Sample.seed .ascending) ::
        .start (.controllerPass 100 .ascending) :: .start (.controllerPass 101 .ascending) ::
          (Sample.commits 0 5 ++ Sample.commits 1 11 ++ Sample.commits 2 11 ++ Sample.commits 3 12 ++
            Sample.commits 2 1))).any
        (fun c => decide (c.state.servingCounter = 2) &&
          c.log.all fun entry => succeeded entry.exchange) by decide +kernel)
  simp only [Bool.and_eq_true, decide_eq_true_eq, List.all_eq_true] at good
  obtain ⟨served, answers⟩ := good
  have noLanding : ErrorsDidNotLand c.log := by
    intro entry member decision expected error same
    have answer := answers entry member
    rw [same] at answer
    cases answer
  have conserved := (releases_conserved run noLanding).1
  have start : Sample.origin.servingCounter = 0 := by decide +kernel
  rw [served, start, Nat.zero_add] at conserved
  exact ⟨c, run, served, conserved.symm⟩

end WaitingRoom
