import WaitingRoom.Common.Items
import WaitingRoom.Edge.Configuration
import WaitingRoom.Edge.WriteOrder

/-!
# Fail-open in two stores

While the item says fail-open, no token is minted, so the gate has to let visitors through: the
mirror's window covers the minter's (`Covered`). Engaging writes the edge first and recovering the
item first, which keeps the cover for one action from a clean state. Overlapping actions, and a
second engagement with an earlier deadline, can break it (`reengaging_uncovers`). A request keeps
the cover exactly when a put does not end the mirror's window before the minter's, and a write of
the item does not extend the minter's past the mirror's (`EdgeLogged.covered_iff`). Actions that keep
out of each other's way and shorten no window do so (`Orderly.keepsCover`), and a run whose requests
all do so is covered throughout (`fail_open_covered`).
-/

set_option autoImplicit false

namespace WaitingRoom.Edge

open Dynamo Concurrency

/-! ## The two windows -/

/-- The minter resolves fail-open. -/
def MinterOpen (state : EdgeState) (now : ℕ) : Prop :=
  ∃ eventId item, state.counters = some item ∧
    resolve (Counters.fromItem eventId item).storedControl
      (Counters.fromItem eventId item).failOpenUntil now = .failOpen

/-- The gate's window is open. -/
def MirrorOpen (console : Console) (state : EdgeState) (now : ℕ) : Prop :=
  ∃ config, decodeGateConfig console.text state.value = some config ∧ now < config.failOpenUntil

/-- Whenever the minter resolves fail-open, the gate's window is open. -/
def Covered (console : Console) (state : EdgeState) : Prop :=
  ∀ now, MinterOpen state now → MirrorOpen console state now

/-- The deadline in the item. -/
def mintDeadline (state : EdgeState) : ℕ :=
  (num (state.counters.getD .empty) "fail_open_until").getD 0

/-- The deadline in the gate's document. -/
def mirrorDeadline (console : Console) (state : EdgeState) : ℕ :=
  ((decodeGateConfig console.text state.value).map GateConfig.failOpenUntil).getD 0

/-- A put does not end the gate's window before the minter's, and a write of the item does not
extend the minter's past the gate's. -/
structure KeepsCover (console : Console) (entry : EdgeEntry) : Prop where
  put : PutLanded entry → ∀ deadline, entry.job.Deadline deadline →
    mintDeadline entry.before ≤ deadline
  update : ∀ update, entry.exchange.call = .updateItem update →
    entry.after.counters ≠ entry.before.counters →
    ∀ deadline, update.deadline = some deadline → deadline ≤ mirrorDeadline console entry.before

section FailOpen

variable {console : Console} {origin state : EdgeState} {log older : List EdgeEntry}
  {entry : EdgeEntry}

theorem resolve_eq_failOpen {stored : StoredControl} {deadline now : ℕ} :
    resolve stored deadline now = .failOpen ↔ now < deadline := by
  unfold resolve
  split_ifs with inside
  · simp [inside]
  · cases stored <;> simp [inside]

theorem minterOpen_iff {now : ℕ} : MinterOpen state now ↔ now < mintDeadline state := by
  constructor
  · rintro ⟨eventId, item, found, resolved⟩
    rw [mintDeadline, found]
    exact resolve_eq_failOpen.mp resolved
  · intro inside
    cases found : state.counters with
    | none =>
        rw [mintDeadline, found] at inside
        exact absurd inside (Nat.not_lt_zero now)
    | some item =>
        rw [mintDeadline, found] at inside
        exact ⟨"", item, found, resolve_eq_failOpen.mpr inside⟩

theorem mirrorOpen_iff {now : ℕ} : MirrorOpen console state now ↔ now < mirrorDeadline console state := by
  unfold MirrorOpen mirrorDeadline
  cases decodeGateConfig console.text state.value <;> simp

/-- The cover is an order of the two deadlines. -/
theorem covered_iff : Covered console state ↔ mintDeadline state ≤ mirrorDeadline console state := by
  constructor
  · intro covered
    by_contra later
    have late : mirrorDeadline console state < mintDeadline state := Nat.lt_of_not_le later
    exact absurd (mirrorOpen_iff.mp (covered _ (minterOpen_iff.mpr late))) (lt_irrefl _)
  · intro order now minter
    exact mirrorOpen_iff.mpr (lt_of_lt_of_le (minterOpen_iff.mp minter) order)

/-! ## What one request does to them -/

/-- An action has one deadline. -/
theorem EdgeJob.Deadline.unique {job : EdgeJob} {deadline deadline' : ℕ} (own : job.Deadline deadline)
    (own' : job.Deadline deadline') : deadline = deadline' := by
  cases job with
  | failOpen minutes actor now =>
      obtain ⟨parsed, read, rfl⟩ := own
      obtain ⟨parsed', read', rfl⟩ := own'
      obtain rfl := Option.some.inj (read.symm.trans read')
      rfl
  | recover actor now =>
      obtain rfl := own
      obtain rfl := own'
      rfl
  | ipBinding _ _ _ | setRules _ _ _ => cases own

/-- The deadline of an updated item. -/
theorem num_of_updated {stored : Option Item} {update : EventUpdate} {item : Item}
    (updated : Dynamo.updateItem stored update.condition update.clauses = .updated item) :
    (update.deadline = none → num item "fail_open_until" = num (stored.getD .empty) "fail_open_until") ∧
      ∀ deadline, update.deadline = some deadline → deadline < u64Bound →
        num item "fail_open_until" = some deadline := by
  have set : ∀ deadline before after, update.clauses =
      before ++ .set "fail_open_until" (.N deadline) :: after →
      (∀ clause ∈ after, "fail_open_until" ≠ clause.attr) → deadline < u64Bound →
      num item "fail_open_until" = some deadline := by
    intro deadline before after clauses last inside
    rw [clauses] at updated
    rw [num, updateItem_set before updated last, Option.bind_some,
      AttributeValue.asUnsigned_natCast inside]
  cases update with
  | setFailOpenUntil deadline audit =>
      refine ⟨fun absent => (by cases absent), fun written same inside => ?_⟩
      obtain rfl := Option.some.inj same
      exact set _ [] (CountersUpdate.auditClauses audit) rfl
        (by simp [CountersUpdate.auditClauses, Clause.attr]) inside
  | setFailOpenUntilFallback deadline =>
      refine ⟨fun absent => (by cases absent), fun written same inside => ?_⟩
      obtain rfl := Option.some.inj same
      exact set _ [] [] rfl (by simp) inside
  | rulesAudit digest count audit =>
      refine ⟨fun _ => ?_, fun written same => (by cases same)⟩
      rw [num, num, updateItem_of_ne updated
        (by simp [EventUpdate.clauses, CountersUpdate.clauses, CountersUpdate.auditClauses, Clause.attr])]
  | stampAction audit =>
      refine ⟨fun _ => ?_, fun written same => (by cases same)⟩
      rw [num, num, updateItem_of_ne updated
        (by simp [EventUpdate.clauses, CountersUpdate.clauses, CountersUpdate.auditClauses, Clause.attr])]

/-- **What a request does to the item**: nothing, unless it is an update that applied. -/
theorem EdgeLogged.item_cases (logged : EdgeLogged console origin older entry) :
    entry.after.counters = entry.before.counters ∨
      ∃ update item, entry.exchange.call = .updateItem update ∧ entry.after.counters = some item ∧
        entry.after.value = entry.before.value ∧ entry.after.etag = entry.before.etag ∧
        Dynamo.updateItem entry.before.counters update.condition update.clauses = .updated item := by
  obtain ⟨choice, responds⟩ := logged.responds
  rcases respondEdge_state responds with same | ⟨fresh, -, after⟩
  · rw [same]
    exact .inl rfl
  generalize entry.exchange.call = call at after
  cases call with
  | getItem | describe | getKey =>
      rw [after]
      exact .inl rfl
  | putKey etag value =>
      rw [after, performEdge]
      split_ifs <;> exact .inl rfl
  | updateItem update =>
      cases outcome : Dynamo.updateItem entry.before.counters update.condition update.clauses with
      | updated item =>
          rw [after, performEdge, outcome]
          exact .inr ⟨update, item, rfl, rfl, rfl, rfl, outcome⟩
      | conditionFailed =>
          rw [after, performEdge, outcome]
          exact .inl rfl
      | rejected =>
          rw [after, performEdge, outcome]
          exact .inl rfl

/-- The mirror's deadline after a put that the store took. -/
theorem mirrorDeadline_of_put (updates : UpdatesOwnField console entry) :
    entry.job.Deadline (mirrorDeadline console entry.after) ∨
      (∀ deadline, ¬ entry.job.Deadline deadline) ∧
        mirrorDeadline console entry.after = mirrorDeadline console entry.before := by
  obtain ⟨old, new, before, after, changes, requested⟩ := updates
  rw [mirrorDeadline, mirrorDeadline, before, after, Option.map_some, Option.map_some,
    Option.getD_some, Option.getD_some]
  generalize entry.job = job at changes requested
  cases job with
  | failOpen _ _ _ | recover _ _ => exact .inl requested
  | ipBinding _ _ _ | setRules _ _ _ => exact .inr ⟨fun _ own => own, changes.2.2.1⟩

/-- **A request keeps the cover exactly when it meets the condition.** -/
theorem EdgeLogged.covered_iff (logged : EdgeLogged console origin older entry)
    (roundTrips : console.text.RoundTrips) (covered : Covered console entry.before) :
    Covered console entry.after ↔ KeepsCover console entry := by
  have order := Edge.covered_iff.mp covered
  rw [Edge.covered_iff]
  rcases logged.item_cases with same | ⟨update, item, call, found, value, etag, updated⟩
  · have mint : mintDeadline entry.after = mintDeadline entry.before := by
      rw [mintDeadline, mintDeadline, same]
    by_cases put : PutLanded entry
    · rcases mirrorDeadline_of_put (logged.updates roundTrips put) with own | ⟨none, mirror⟩
      · rw [mint]
        refine ⟨fun below => ⟨fun _ deadline own' => ?_, fun _ _ changed => absurd same changed⟩,
          fun keeps => keeps.put put _ own⟩
        rw [own'.unique own]
        exact below
      · rw [mint, mirror]
        exact ⟨fun _ => ⟨fun _ deadline own => absurd own (none deadline),
          fun _ _ changed => absurd same changed⟩, fun _ => order⟩
    · have mirror : mirrorDeadline console entry.after = mirrorDeadline console entry.before := by
        rcases logged.document_cases with ⟨-, value⟩ | ⟨etag, value, call, -, -, -, unused⟩
        · rw [mirrorDeadline, mirrorDeadline, value]
        · exact absurd ⟨etag, value, call, (unused _ List.mem_cons_self).symm⟩ put
      rw [mint, mirror]
      exact ⟨fun _ => ⟨fun landed => absurd landed put, fun _ _ changed => absurd same changed⟩,
        fun _ => order⟩
  · have mirror : mirrorDeadline console entry.after = mirrorDeadline console entry.before := by
      rw [mirrorDeadline, mirrorDeadline, value]
    have mint : mintDeadline entry.after = (num item "fail_open_until").getD 0 := by
      rw [mintDeadline, found, Option.getD_some]
    rw [mirror, mint]
    have lawful := logged.lawful
    rw [call] at lawful
    have noPut : ¬ PutLanded entry := fun ⟨_, _, _, changed⟩ => changed etag
    cases written : update.deadline with
    | none =>
        rw [(num_of_updated updated).1 written]
        refine ⟨fun _ => ⟨fun landed => absurd landed noPut, fun other call' _ deadline own => ?_⟩,
          fun _ => order⟩
        obtain rfl : update = other := by simpa [call] using call'
        rw [written] at own
        cases own
    | some deadline =>
        rw [(num_of_updated updated).2 deadline written (lawful deadline written).lt, Option.getD_some]
        constructor
        · refine fun below => ⟨fun landed => absurd landed noPut, fun other call' _ deadline' own => ?_⟩
          obtain rfl : update = other := by simpa [call] using call'
          obtain rfl := Option.some.inj (written.symm.trans own)
          exact below
        · intro keeps
          by_cases same : entry.after.counters = entry.before.counters
          · rw [mintDeadline, ← same, found, Option.getD_some,
              (num_of_updated updated).2 deadline written (lawful deadline written).lt] at order
            exact order
          · exact keeps.update update call same deadline written

/-- A trace of requests that keep the cover stays covered, and no other does. -/
theorem EdgeTrace.covered_iff (trace : EdgeTrace console origin log state)
    (roundTrips : console.text.RoundTrips) (covered : Covered console origin) :
    (∀ entry ∈ log, KeepsCover console entry) ↔ ∀ held ∈ state :: past log, Covered console held := by
  induction log generalizing state with
  | nil =>
      cases trace
      simpa [past] using covered
  | cons entry older ih =>
      obtain ⟨logged, rfl⟩ := trace.logged_head
      have below := ih logged.earlier
      have held : past (entry :: older) = entry.before :: past older := rfl
      rw [List.forall_mem_cons, List.forall_mem_cons, held, below]
      constructor
      · rintro ⟨keeps, earlier⟩
        exact ⟨(logged.covered_iff roundTrips (earlier _ List.mem_cons_self)).mpr keeps, earlier⟩
      · rintro ⟨after, earlier⟩
        exact ⟨(logged.covered_iff roundTrips (earlier _ List.mem_cons_self)).mp after, earlier⟩

/-! ## Actions that keep out of each other's way -/

/-- A request that may change a store. -/
def EdgeCall.writes : EdgeCall → Bool
  | .putKey _ _ | .updateItem _ => true
  | .getItem | .describe | .getKey => false

/-- No fail-open is put that ends before the one the item has, and between two writes of a fail-open
or a recover no other one writes. -/
structure Orderly (log : List EdgeEntry) : Prop where
  longer : ∀ entry ∈ log, PutLanded entry → ∀ minutes actor now,
    entry.job = .failOpen minutes actor now →
      ∀ deadline, entry.job.Deadline deadline → mintDeadline entry.before ≤ deadline
  alone : ∀ newer late between early older, log = newer ++ late :: (between ++ early :: older) →
    late.thread = early.thread → late.job.setsWindow → late.exchange.call.writes →
      early.exchange.call.writes → ∀ middle ∈ between, middle.thread ≠ late.thread →
        middle.job.setsWindow → ¬ middle.exchange.call.writes

theorem EdgeJob.Deadline.setsWindow {job : EdgeJob} {deadline : ℕ} (own : job.Deadline deadline) :
    job.setsWindow := by
  cases job with
  | failOpen _ _ _ | recover _ _ => rfl
  | ipBinding _ _ _ | setRules _ _ _ => cases own

/-- How a request can change the deadline in the item. -/
theorem EdgeLogged.mint_cases (logged : EdgeLogged console origin older entry) :
    mintDeadline entry.after = mintDeadline entry.before ∨
      entry.exchange.call.writes ∧ entry.job.Deadline (mintDeadline entry.after) := by
  rcases logged.item_cases with same | ⟨update, item, call, found, -, -, updated⟩
  · left
    rw [mintDeadline, mintDeadline, same]
  · have mint : mintDeadline entry.after = (num item "fail_open_until").getD 0 := by
      rw [mintDeadline, found, Option.getD_some]
    have lawful := logged.lawful
    rw [call] at lawful
    cases written : update.deadline with
    | none =>
        left
        rw [mint, (num_of_updated updated).1 written, mintDeadline]
    | some deadline =>
        have own := lawful deadline written
        rw [mint, (num_of_updated updated).2 deadline written own.lt, Option.getD_some, call]
        exact .inr ⟨rfl, own⟩

/-- How a request can change the deadline in the gate's document. -/
theorem EdgeLogged.mirror_cases (logged : EdgeLogged console origin older entry)
    (roundTrips : console.text.RoundTrips) :
    mirrorDeadline console entry.after = mirrorDeadline console entry.before ∨
      entry.exchange.call.writes ∧ entry.job.Deadline (mirrorDeadline console entry.after) := by
  rcases logged.document_cases with ⟨-, value⟩ | ⟨etag, value, call, -, -, -, unused⟩
  · left
    rw [mirrorDeadline, mirrorDeadline, value]
  · have put : PutLanded entry := ⟨etag, value, call, (unused _ List.mem_cons_self).symm⟩
    rcases mirrorDeadline_of_put (logged.updates roundTrips put) with own | ⟨-, same⟩
    · exact .inr ⟨by rw [call]; rfl, own⟩
    · exact .inl same

/-- An answered write of a deadline has written it. -/
theorem EdgeLogged.mint_of_answer (logged : EdgeLogged console origin older entry) {deadline : ℕ}
    (answered : DeadlineAnswered deadline entry.exchange) (inside : deadline < u64Bound) :
    mintDeadline entry.after = deadline := by
  obtain ⟨update, answer, same, written, fallback⟩ := answered
  obtain ⟨choice, responds⟩ := logged.responds
  rw [same] at responds
  cases choice with
  | commit fresh =>
      simp only [respondEdge] at responds
      split_ifs at responds with unused
      have performed := Option.some.inj responds
      rw [performEdge] at performed
      cases outcome : Dynamo.updateItem entry.before.counters update.condition update.clauses with
      | updated item =>
          rw [outcome] at performed
          have found : entry.after.counters = some item :=
            (congrArg (fun reply => reply.2.counters) performed).symm
          rw [mintDeadline, found, Option.getD_some,
            (num_of_updated outcome).2 deadline written inside, Option.getD_some]
      | conditionFailed =>
          rw [outcome] at performed
          have unanswered : answer = none :=
            (Except.ok.inj (congrArg Prod.fst performed)).symm
          -- nothing guards the fallback
          obtain rfl := fallback unanswered
          rw [Dynamo.updateItem] at outcome
          split_ifs at outcome with guarded
          · split at outcome <;> cases outcome
          · exact absurd rfl guarded
      | rejected =>
          rw [outcome] at performed
          cases congrArg Prod.fst performed
  | lost error => cases congrArg Prod.fst (Option.some.inj responds)
  | landed fresh error =>
      simp only [respondEdge] at responds
      split_ifs at responds
      cases congrArg Prod.fst (Option.some.inj responds)
  | stale age => cases responds

/-- An answered put has put the deadline of its action. -/
theorem EdgeLogged.mirror_of_answer (logged : EdgeLogged console origin older entry)
    (roundTrips : console.text.RoundTrips) {deadline : ℕ} (own : entry.job.Deadline deadline)
    (answered : PutAnswered entry.exchange) : mirrorDeadline console entry.after = deadline := by
  obtain ⟨etag, value, same⟩ := answered
  obtain ⟨put, -⟩ := logged.landed_of_answer same
  rcases mirrorDeadline_of_put (logged.updates roundTrips put) with put | ⟨none, -⟩
  · exact put.unique own
  · exact absurd own (none deadline)

section Orderly

variable {c : EdgeRoom}

/-- **Between two writes of one action its deadline stays**, where only writes of actions that set
the window change it. -/
theorem Orderly.kept (orderly : Orderly c.log) (run : EdgeRun console origin c)
    {deadlineOf : EdgeState → ℕ}
    (cases : ∀ entry ∈ c.log, deadlineOf entry.after = deadlineOf entry.before ∨
      entry.exchange.call.writes ∧ entry.job.Deadline (deadlineOf entry.after))
    {newer between oldest : List EdgeEntry} {late early : EdgeEntry}
    (whole : c.log = newer ++ late :: (between ++ early :: oldest))
    (thread : late.thread = early.thread) (writes : late.exchange.call.writes)
    (wrote : early.exchange.call.writes) {deadline : ℕ} (own : late.job.Deadline deadline)
    (set : deadlineOf early.after = deadline) : deadlineOf late.before = deadline := by
  have trace := run.trace
  rw [whole] at trace
  have upTo : EdgeTrace console origin (between ++ early :: oldest) late.before := trace.logged.earlier
  obtain ⟨start, earlier⟩ := Trace.suffix upTo
  obtain ⟨-, rfl⟩ := EdgeTrace.logged_head earlier
  refine Trace.relates (fun old new => deadlineOf old = deadline → deadlineOf new = deadline)
    (fun _ same => same) (fun _ _ _ first second same => second (first same)) earlier upTo ?_ set
  intro middle inside before
  have member : middle ∈ c.log := by
    rw [whole]
    simp [inside]
  rcases cases middle member with same | ⟨writes', own'⟩
  · rw [same, before]
  by_cases mine : middle.thread = late.thread
  · -- another write of the same action
    rw [System.Reaches.job_eq run member (show late ∈ c.log by rw [whole]; simp) mine] at own'
    exact own'.unique own
  · exact absurd writes' (orderly.alone newer late between early oldest whole thread own.setsWindow
      writes wrote middle inside mine own'.setsWindow)

/-- A write finds the deadline as an earlier one of its action left it. -/
theorem Orderly.found (orderly : Orderly c.log) (run : EdgeRun console origin c)
    {deadlineOf : EdgeState → ℕ}
    (cases : ∀ entry ∈ c.log, deadlineOf entry.after = deadlineOf entry.before ∨
      entry.exchange.call.writes ∧ entry.job.Deadline (deadlineOf entry.after))
    {newer older : List EdgeEntry} {late : EdgeEntry} (whole : c.log = newer ++ late :: older)
    (writes : late.exchange.call.writes) {deadline : ℕ} (own : late.job.Deadline deadline)
    {exchange : Exchange Stores} (member : exchange ∈ history older late.thread)
    (wrote : exchange.call.writes)
    (set : ∀ early ∈ c.log, early.exchange = exchange → early.job = late.job →
      deadlineOf early.after = deadline) : deadlineOf late.before = deadline := by
  obtain ⟨early, below, mine, rfl⟩ := mem_history.mp member
  have inLog : early ∈ c.log := by
    rw [whole]
    exact List.mem_append_right _ (List.mem_cons_of_mem _ below)
  have same := System.Reaches.job_eq run inLog (show late ∈ c.log by rw [whole]; simp) mine
  obtain ⟨between, oldest, rfl⟩ := List.append_of_mem below
  exact orderly.kept run cases whole mine.symm writes wrote own (set early inLog rfl same)

/-- **Actions that keep out of each other's way keep the cover.** -/
theorem Orderly.keepsCover (orderly : Orderly c.log) (run : EdgeRun console origin c)
    (roundTrips : console.text.RoundTrips) : ∀ entry ∈ c.log, KeepsCover console entry := by
  intro entry member
  have logged : ∀ entry ∈ c.log, ∃ older, EdgeLogged console origin older entry := by
    intro entry member
    obtain ⟨_, older, -, logged⟩ := run.trace.logged_of_mem member
    exact ⟨older, logged⟩
  obtain ⟨newer, older, whole⟩ := List.append_of_mem member
  have ordered : WritesInOrder entry.job (history older entry.thread) entry.exchange.call := by
    have trace := System.Reaches.trace run edge_ordered
    rw [whole] at trace
    exact (Trace.split trace).2.1
  refine ⟨fun put deadline own => ?_, fun update call _ deadline written => ?_⟩
  · have ⟨etag, value, call, _⟩ := put
    cases job : entry.job with
    | failOpen minutes actor now => exact orderly.longer entry member put minutes actor now job deadline own
    | recover actor now =>
        -- the item was cleared before, and is still
        rw [job, call] at ordered
        obtain ⟨exchange, found, answered⟩ := ordered
        have wrote : exchange.call.writes := by
          obtain ⟨update, answer, same, -⟩ := answered
          rw [same]
          rfl
        have none : entry.job.Deadline 0 := by
          rw [job]
          rfl
        have cleared := orderly.found run
          (fun entry inLog => (logged entry inLog).choose_spec.mint_cases) whole
          (by rw [call]; rfl) none found wrote fun early inLog same _ =>
            (logged early inLog).choose_spec.mint_of_answer (same ▸ answered) (Nat.two_pow_pos 64)
        rw [cleared]
        exact Nat.zero_le deadline
    | ipBinding _ _ _ | setRules _ _ _ =>
        rw [job] at own
        cases own
  · have own : entry.job.Deadline deadline := by
      obtain ⟨_, here⟩ := logged entry member
      have lawful := here.lawful
      rw [call] at lawful
      exact lawful deadline written
    cases job : entry.job with
    | recover actor now =>
        rw [job] at own
        obtain rfl : deadline = 0 := own
        exact Nat.zero_le _
    | failOpen minutes actor now =>
        -- the edge was opened before, and is still
        rw [job, call] at ordered
        obtain ⟨exchange, found, answered⟩ := ordered
        have wrote : exchange.call.writes := by
          obtain ⟨etag, value, same⟩ := answered
          rw [same]
          rfl
        have opened := orderly.found run
          (fun entry inLog => (logged entry inLog).choose_spec.mirror_cases roundTrips) whole
          (by rw [call]; rfl) own found wrote fun early inLog same alike =>
            (logged early inLog).choose_spec.mirror_of_answer roundTrips (alike ▸ own) (same ▸ answered)
        rw [opened]
    | ipBinding _ _ _ | setRules _ _ _ =>
        rw [job] at own
        cases own

/-- Actions that follow one another keep out of each other's way, where no fail-open is shortened. -/
theorem Orderly.of_sorted {log : List EdgeEntry}
    (sorted : log.Pairwise fun late early => early.thread ≤ late.thread)
    (longer : ∀ entry ∈ log, PutLanded entry → ∀ deadline, entry.job.Deadline deadline →
      mintDeadline entry.before ≤ deadline) : Orderly log where
  longer := fun entry member put _ _ _ _ deadline own => longer entry member put deadline own
  alone := by
    rintro newer late between early older rfl thread - - - middle inside other -
    have below := List.pairwise_append.mp sorted |>.2.1
    obtain ⟨after, rest⟩ := List.pairwise_cons.mp below
    have upper := after middle (List.mem_append_left _ inside)
    have lower := List.pairwise_append.mp rest |>.2.2 middle inside early List.mem_cons_self
    exact absurd (Nat.le_antisymm upper (thread ▸ lower)) other

end Orderly

/-- **Fail-open is covered throughout a run exactly when every request keeps the cover**, and it is
when the actions keep out of each other's way. -/
theorem fail_open_covered (console : Console) (roundTrips : console.text.RoundTrips)
    (origin : EdgeState) (covered : Covered console origin) (c : EdgeRoom)
    (run : EdgeRun console origin c) :
    ((∀ entry ∈ c.log, KeepsCover console entry) ↔
      ∀ state ∈ c.state :: past c.log, Covered console state) ∧
    (Orderly c.log → ∀ state ∈ c.state :: past c.log, Covered console state) := by
  have exact_ := run.trace.covered_iff roundTrips covered
  exact ⟨exact_, fun orderly => exact_.mp (orderly.keepsCover run roundTrips)⟩

end FailOpen

/-! ## Runs -/

namespace Sample

/-- A gate that was never opened. -/
def enforcing : EdgeState :=
  ⟨"e0", "\x7b\"v\":1,\"s\":0,\"f\":0,\"r\":[]\x7d", some .empty⟩

/-- An hour's fail-open, from its load to its write of the item. -/
def engage : List (Action EdgeJob EdgeChoice) :=
  .start (.failOpen "60" "operator" ⟨0⟩) :: commits 0 ["a", "a", "a", "e1", "a"]

theorem enforcing_covered : Covered console enforcing :=
  covered_iff.mpr (by decide +kernel)

end Sample

/-- An hour's fail-open that is recovered is covered throughout. -/
theorem fail_open_covered_sample : ∃ c : EdgeRoom, EdgeRun Sample.console Sample.enforcing c ∧
    c.log.length = 10 ∧ Orderly c.log ∧ (∀ entry ∈ c.log, KeepsCover Sample.console entry) ∧
    ∀ state ∈ c.state :: past c.log, Covered Sample.console state := by
  obtain ⟨c, run, good⟩ := System.exists_reaches_of_run
    (show ((edge Sample.console).run .free (.initial Sample.enforcing)
      (Sample.engage ++ .start (.recover "operator" ⟨1800000000000⟩) ::
        Sample.commits 1 ["a", "a", "a", "a", "e2"])).any
      (fun c => decide (c.log.length = 10) &&
        decide (c.log.Pairwise fun late early => early.thread ≤ late.thread) && c.log.all fun entry =>
          decide (entry.after.etag = entry.before.etag) || decide (mintDeadline entry.before = 0)) by
      decide +kernel)
  simp only [Bool.and_eq_true, Bool.or_eq_true, decide_eq_true_eq, List.all_eq_true] at good
  obtain ⟨⟨length, sorted⟩, closed⟩ := good
  -- both documents are put while the item has no window
  have orderly : Orderly c.log := by
    refine .of_sorted sorted fun entry member put deadline _ => ?_
    obtain ⟨_, _, -, moved⟩ := put
    rw [(closed entry member).resolve_left moved]
    exact Nat.zero_le deadline
  obtain ⟨exact_, kept⟩ := fail_open_covered Sample.console Sample.text_roundTrips Sample.enforcing
    Sample.enforcing_covered c run
  exact ⟨c, run, length, orderly, exact_.mpr (kept orderly), kept orderly⟩

/-- **Engaging again for a shorter time uncovers the minter**: the edge is written first, so until
the item follows the gate enforces while no token is minted. -/
theorem reengaging_uncovers : ∃ c : EdgeRoom, EdgeRun Sample.console Sample.enforcing c ∧
    Covered Sample.console Sample.enforcing ∧ (∀ job ∈ c.jobs, job.setsWindow) ∧
    MinterOpen c.state 400 ∧ ¬ MirrorOpen Sample.console c.state 400 := by
  obtain ⟨c, run, good⟩ := System.exists_reaches_of_run
    (show ((edge Sample.console).run .free (.initial Sample.enforcing)
      (Sample.engage ++ .start (.failOpen "5" "operator" ⟨100000000000⟩) ::
        Sample.commits 1 ["a", "a", "a", "e2"])).any
      (fun c => c.jobs.all EdgeJob.setsWindow && decide (400 < mintDeadline c.state) &&
        decide (¬ 400 < mirrorDeadline Sample.console c.state)) by
      decide +kernel)
  simp only [Bool.and_eq_true, decide_eq_true_eq, List.all_eq_true] at good
  obtain ⟨⟨jobs, minter⟩, mirror⟩ := good
  exact ⟨c, run, Sample.enforcing_covered, jobs, minterOpen_iff.mpr minter,
    fun opened => mirror (mirrorOpen_iff.mp opened)⟩

end WaitingRoom.Edge
