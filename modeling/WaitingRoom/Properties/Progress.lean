import WaitingRoom.Properties.Possession
import WaitingRoom.Properties.Release
import WaitingRoom.Properties.Turns

/-!
# How long a visitor waits

A release that lands moves the cursor by the target of one interval at least, unless it reaches the
end of the line, and the line only grows. So whoever has a place waits for no more landed releases
than the places ahead take at the lowest rate of that time (`waiting_is_bounded`): batches that join
behind, opens, operators and passes that lose their race do not make the wait longer.
-/

set_option autoImplicit false

namespace WaitingRoom

open Dynamo Concurrency

/-- The target rate of the tables, as a pass reads it. -/
def Db.targetRate (db : Db) : ℕ :=
  if db.reading "target_rate" < u32Bound then db.reading "target_rate" else 0

/-- A release whose pass was told that it advanced the cursor. -/
def advances (entry : RoomEntry) : Bool :=
  match entry.exchange with
  | ⟨.updateCounters (.writeRelease _ _), .ok (some _)⟩ => true
  | _ => false

theorem advances_iff {entry : RoomEntry} :
    advances entry = true ↔ ∃ decision expected item, entry.exchange =
      answered (.updateCounters (.writeRelease decision expected)) (.ok (some item)) := by
  constructor
  · intro held
    unfold advances at held
    split at held
    · rename_i decision expected item same
      exact ⟨decision, expected, item, same⟩
    · cases held
  · rintro ⟨decision, expected, item, same⟩
    rw [advances, same]

/-- The calls that a run made after a moment. -/
def callsSince (c later : Room) : List RoomEntry :=
  later.log.take (later.log.length - c.log.length)

theorem callsSince_eq {c later : Room} {newer : List RoomEntry} (whole : later.log = newer ++ c.log) :
    callsSince c later = newer := by
  rw [callsSince, whole, List.length_append, Nat.add_sub_cancel, List.take_left]

/-- The landed releases of the passes that began after a moment of the run. -/
def releasesSince (c later : Room) : ℕ :=
  (callsSince c later).countP fun entry =>
    advances entry && (history c.log entry.thread).isEmpty

/-- Just past a place, as far as a cursor of 64 bits can go. -/
def pastPlace (position : ℕ) : ℕ := min (position + 1) u64Max

section Progress

variable {d : Deployment} {policy : RoomPolicy} {origin old db : Db} {log newer older : List RoomEntry}
  {entry : RoomEntry} {position rate : ℕ}

/-- The rate of the item that a pass reads is that of the tables. -/
theorem targetRate_of_read {item : Item} (found : old.counters = some item)
    (arrivals : Shard → ℕ) :
    (controllerStateOf item arrivals).inputs.targetRate = old.targetRate := by
  rw [Db.targetRate, Db.reading, found]
  rfl

/-- The end of the line that a pass reads is past every place of before. -/
theorem le_queueCounter_of_read {item : Item} (counted : LineCounted old)
    (found : old.counters = some item) (arrivals : Shard → ℕ) (behind : (position : ℚ) ≤ old.line)
    (short : old.line < u64Bound) :
    position ≤ (controllerStateOf item arrivals).inputs.queueCounter := by
  obtain ⟨line, stored⟩ := counted.whole
  rw [line_of_attr stored] at behind short
  have read : old.reading "queue_counter" = line :=
    reading_of_attr stored (by exact_mod_cast short)
  rw [Db.reading, found] at read
  exact (Nat.cast_le.mp behind).trans_eq read.symm

/-- One release moves the cursor by the target of its rate, or past every place within the line. -/
theorem computeRelease_progress (inputs : ReleaseInputs) (prev : Option NoShowState) (now : ℕ)
    (rated : inputs.targetRate < u32Bound) (paced : rate ≤ inputs.targetRate)
    (behind : position ≤ inputs.queueCounter) :
    min (pastPlace position) (inputs.servingCounter + rate * intervalSecs) ≤
      (computeRelease f64 inputs prev now).nextServingCounter := by
  have target : rate * intervalSecs ≤ (measure f64 inputs prev now).1 := by
    refine le_trans ?_ (target_le_measure (representsTarget_f64 rated) prev now)
    rw [targetReleasePerInterval_eq rated]
    exact Nat.mul_le_mul_right _ paced
  rw [computeRelease_next]
  refine le_max_of_le_left (le_min ?_ ?_)
  · refine le_trans ?_ (saturatingAdd_mono target)
    exact le_min (min_le_right _ _) ((min_le_left _ _).trans (min_le_right _ _))
  · refine (min_le_left _ _).trans ?_
    exact min_le_min_right _ (Nat.succ_le_succ behind)

/-- A pass that began after a moment read the counters after it. -/
theorem RoomTrace.pass_read_later (trace : RoomTrace d policy origin (newer ++ older) db)
    {item : Item} {arrivals : Shard → ℕ} {thread : ℕ} (unread : history older thread = [])
    (reads : PassReads (history (newer ++ older) thread) item arrivals) :
    ∃ read newest between, newer = newest ++ read :: between ∧ read.before.counters = some item ∧
      RoomTrace d policy origin (between ++ older) read.before := by
  obtain ⟨read, inLog, rfl, exchange⟩ := mem_history.mp reads.counters
  obtain ⟨newest, between, rfl⟩ := List.append_of_mem (mem_newer inLog unread)
  have regrouped : RoomTrace d policy origin (newest ++ read :: (between ++ older)) db := by
    simpa using trace
  have answer := regrouped.logged.committed_answer exchange rfl (by intro ids same; cases same)
  exact ⟨read, newest, between, rfl, (Except.ok.inj answer).symm, regrouped.logged.earlier⟩

/-- What a release of a pass that began after a moment does to the cursor. -/
theorem Logged.progress (seeded : Seeded origin)
    (logged : Logged d policy origin (newer ++ older) entry)
    (earlier : RoomTrace d policy origin older old) (landed : advances entry = true)
    (unread : history older entry.thread = []) (placed : (position : ℚ) ≤ old.line)
    (short : entry.before.line < u64Bound) (paced : ∀ read ∈ newer, rate ≤ read.before.targetRate) :
    min (pastPlace position) (entry.before.servingCounter + rate * intervalSecs) ≤
      entry.after.servingCounter := by
  obtain ⟨decision, expected, written, same⟩ := advances_iff.mp landed
  have landed := logged.landed_of_answer same
  obtain ⟨now, order, item, arrivals, -, -, reads, computed, expects, -, -⟩ :=
    logged.pass_reads landed
  obtain ⟨before, -, moved⟩ := logged.moves landed
  obtain ⟨read, newest, between, whole, found, held⟩ := logged.earlier.pass_read_later unread reads
  have behind : position ≤ (controllerStateOf item arrivals).inputs.queueCounter := by
    have below : RoomTrace d policy origin ((newest ++ [read]) ++ (between ++ older))
        entry.before := by simpa [whole] using logged.earlier
    exact le_queueCounter_of_read (held.lineCounted seeded) found arrivals
      (placed.trans (held.line_grows seeded earlier))
      ((below.line_grows seeded held).trans_lt short)
  have target : rate ≤ (controllerStateOf item arrivals).inputs.targetRate := by
    rw [targetRate_of_read found arrivals]
    exact paced read (by rw [whole]; simp)
  have rated := controllerStateOf_targetRate_lt item arrivals
  have step := computeRelease_progress _ (storedNoShow item) now rated target behind
  rw [computeRelease_release, ← expects, ← computed, ← before, ← moved] at step
  exact step

/-- **Every release of a pass that began after a moment counts.** -/
theorem RoomTrace.progress (seeded : Seeded origin) (earlier : RoomTrace d policy origin older old)
    (trace : RoomTrace d policy origin (newer ++ older) db) (placed : (position : ℚ) ≤ old.line)
    (short : db.line < u64Bound) (paced : ∀ entry ∈ newer, rate ≤ entry.before.targetRate) :
    min (pastPlace position) (old.servingCounter + rate * intervalSecs *
      newer.countP fun entry => advances entry && (history older entry.thread).isEmpty) ≤
        db.servingCounter := by
  induction newer generalizing db with
  | nil => exact (min_le_right _ _).trans (trace.serving_grows seeded earlier)
  | cons entry newer ih =>
      have logged : Logged d policy origin (newer ++ older) entry := trace.logged_head
      obtain rfl : db = entry.after := trace.after_of_split.symm
      have shorter := (logged.line_le seeded).trans_lt short
      have before := ih logged.earlier shorter fun read member =>
        paced read (List.mem_cons_of_mem _ member)
      have last : RoomTrace d policy origin ([entry] ++ (newer ++ older)) entry.after := trace
      have grown := last.serving_grows seeded logged.earlier
      rw [List.countP_cons]
      split_ifs with counted
      · obtain ⟨landed, unread⟩ := Bool.and_eq_true_iff.mp counted
        have step := logged.progress seeded earlier landed (List.isEmpty_iff.mp unread) placed shorter
          fun read member => paced read (List.mem_cons_of_mem _ member)
        rw [mul_add, mul_one]
        omega
      · exact before.trans grown

end Progress

/-- **How long a visitor waits**: every landed release of a pass that began after a place was given
out moves the cursor by the target of the lowest rate since then, until it is past that place. -/
theorem waiting_is_bounded {d : Deployment} {origin : Db} (seeded : Seeded origin) {c later : Room}
    (run : RoomRun d .free origin c) (goesOn : (room d).Reaches .free c later)
    {requestId : RequestId} {position rate : ℕ}
    (placed : position ∈ positionsOf d c.state requestId) (short : later.state.line < u64Bound)
    (paced : ∀ entry ∈ callsSince c later, rate ≤ entry.before.targetRate) :
    min (pastPlace position)
        (c.state.servingCounter + rate * intervalSecs * releasesSince c later) ≤
      later.state.servingCounter := by
  obtain ⟨newer, whole, trace⟩ := run.extend goesOn
  rw [callsSince_eq whole] at paced
  rw [releasesSince, callsSince_eq whole]
  have within := GivenPlace.le_line (run.trace.mem_positionsOf seeded placed) seeded run.trace
  exact run.trace.progress seeded trace within short paced

/-- One landed pass is enough for Alice, who is at place 0. -/
theorem waiting_is_bounded_sample : ∃ c later : Room, RoomRun Sample.deployment .free Sample.origin c ∧
    (room Sample.deployment).Reaches .free c later ∧ c.state.servingCounter = 0 ∧
    1 ≤ later.state.servingCounter := by
  obtain ⟨c, run, good⟩ := System.exists_reaches_of_run
    (show ((room Sample.deployment).run .free (.initial Sample.origin) Sample.placed).any
      (fun c => decide (c.state.servingCounter = 0) &&
        (c.state.prequeue Sample.alice).any (fun row => decide
          ((Sample.deployment.view c.state).resolvePrequeue Sample.deployment.hmac row =
            .ok (.preQueue 0))) &&
        ((room Sample.deployment).run .free c
          ([.start (.controllerPass 100 .ascending)] ++ Sample.commits 2 12)).any fun later =>
            decide (later.state.line < (u64Bound : ℚ) ∧ releasesSince c later = 1) &&
              (callsSince c later).all fun entry => decide (5 ≤ entry.before.targetRate)) by
      decide +kernel)
  simp only [Bool.and_eq_true, decide_eq_true_eq] at good
  obtain ⟨⟨start, stored⟩, suffix⟩ := good
  obtain ⟨later, goesOn, good⟩ := System.exists_reaches_of_run suffix
  simp only [Bool.and_eq_true, decide_eq_true_eq] at good
  obtain ⟨⟨short, landed⟩, paced⟩ := good
  have placed : 0 ∈ positionsOf Sample.deployment c.state Sample.alice := by
    obtain ⟨row, held, resolves⟩ := (Option.any_eq_true _ _).mp stored
    exact .inr ⟨row, held, of_decide_eq_true resolves⟩
  have bound := waiting_is_bounded Sample.origin_seeded run goesOn placed short
    fun entry member => of_decide_eq_true (List.all_eq_true.mp paced entry member)
  rw [landed, start] at bound
  exact ⟨c, later, run, goesOn, start, le_trans (by decide) bound⟩

end WaitingRoom
