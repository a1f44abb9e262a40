import WaitingRoom.NoJs.Service
import WaitingRoom.Properties.Possession
import WaitingRoom.Properties.Turns

/-!
# The holder of an identity keeps a place

A row is put for a join that a batch accepted, with the digest of that join (`processBatch_puts`). So while every
join of an id carries the digest of its holder's secret, every row of the id does, in every state
(`RoomTrace.carries`), and the wait page never forgets its holder: it shows a place that was given out to
that id and a number ahead that the cursor has not fallen behind (`holder_keeps_place`).
-/

set_option autoImplicit false

namespace WaitingRoom

open Dynamo Concurrency

/-! ## Whose rows a batch puts -/

/-- The id and the digest of the row that a call puts. -/
def Call.puts : Call → Option (RequestId × SecretDigest)
  | .putPosition write => some (write.requestId, write.digest)
  | .putPrequeue write => some (write.requestId, write.digest)
  | _ => none

/-- An id and a digest are those of a join. -/
def OfJoin (valid : List (String × JoinMessage)) (row : RequestId × SecretDigest) : Prop :=
  ∃ record ∈ valid, (record.2.requestId, record.2.h) = row

/-- Rows that were written are those of joins. -/
abbrev WrittenOf (valid : List (String × JoinMessage)) (written : List PreQueueWrite) : Prop :=
  ∀ write ∈ written, OfJoin valid (write.requestId, write.digest)

/-- A call puts rows of joins only. -/
abbrev PutsJoins (valid : List (String × JoinMessage)) (_ : History) (call : Call) : Prop :=
  ∀ row, call.puts = some row → OfJoin valid row

section Joins

variable {valid group : List (String × JoinMessage)} {history : History}

theorem putsJoins_of_none {call : Call} (putsNone : call.puts = none) :
    PutsJoins valid history call := by
  intro row puts
  rw [putsNone] at puts
  cases puts

theorem putPositions_puts (start : ℕ) :
    Obeys (PutsJoins valid) (fun _ _ => True) history (putPositions start valid) := by
  refine (Obeys.forEach (fun _ _ _ => True) trivial ?_).mono (fun _ _ => id) fun _ _ _ => trivial
  rintro past ⟨messageId, msg⟩ rest later failures whole -
  have member : (messageId, msg) ∈ valid := by rw [whole]; simp
  refine obeys_request_bind ?_ (fun _ => trivial) fun _ => trivial
  intro row puts
  exact ⟨_, member, Option.some.inj puts⟩

theorem processLiveBatch_puts :
    Obeys (PutsJoins valid) (fun _ _ => True) history (processLiveBatch valid) := by
  refine obeys_request_bind (putsJoins_of_none rfl) (fun _ => trivial) fun payload => ?_
  split
  · exact trivial
  · exact (putPositions_puts _).bind fun _ _ _ => trivial

theorem putPrequeues_puts (shard : Shard) (start : ℕ) (among : group ⊆ valid) :
    Obeys (PutsJoins valid)
      (fun _ result => WrittenOf valid result.1) history (putPrequeues shard start group) := by
  refine Obeys.forEach
    (fun _ _ (result : List PreQueueWrite × List String) => WrittenOf valid result.1) nofun ?_
  rintro past ⟨messageId, msg⟩ rest later ⟨written, failures⟩ whole joined
  have member : (messageId, msg) ∈ valid := among (by rw [whole]; simp)
  refine obeys_request_bind ?_ (fun _ => joined) fun outcome => ?_
  · intro row puts
    exact ⟨_, member, Option.some.inj puts⟩
  · cases outcome with
    | duplicate => exact joined
    | written =>
        intro write among
        rcases List.mem_append.mp among with earlier | last
        · exact joined write earlier
        · obtain rfl := List.mem_singleton.mp last
          exact ⟨_, member, rfl⟩

theorem putStragglers_puts (start : ℕ) {stragglers : List PreQueueWrite}
    (joined : WrittenOf valid stragglers) :
    Obeys (PutsJoins valid) (fun _ _ => True) history (putStragglers start stragglers) := by
  refine (Obeys.forEach (fun _ _ _ => True) trivial ?_).mono (fun _ _ => id) fun _ _ _ => trivial
  rintro past write rest later ⟨⟩ whole -
  have member : write ∈ stragglers := by rw [whole]; simp
  refine obeys_request_bind ?_ (fun _ => trivial) fun _ => trivial
  intro row puts
  obtain rfl := Option.some.inj puts
  exact joined write member

theorem fixupStragglers_puts (eventId : String) {written : List PreQueueWrite}
    (joined : WrittenOf valid written) :
    Obeys (PutsJoins valid) (fun _ _ => True) history (fixupStragglers eventId written) := by
  refine obeys_request_bind (putsJoins_of_none rfl) (fun _ => trivial) fun payload => ?_
  simp only
  split
  · exact trivial
  · next opened outputs =>
    split_ifs with empty
    · exact trivial
    · refine obeys_request_bind (putsJoins_of_none rfl) (fun _ => trivial) fun payload => ?_
      split
      · exact trivial
      · refine putStragglers_puts _ fun write member => joined write ?_
        exact (List.mem_filter.mp member).1

/-- Reading the registered ids puts nothing. -/
theorem registeredIdsOrUnknown_puts (requestIds : List RequestId) :
    Obeys (PutsJoins valid) (fun _ _ => True) history (registeredIdsOrUnknown requestIds) := by
  have reads : Obeys (PutsJoins valid) (fun _ => onResult (fun _ => True) fun _ => True) history
      (registeredIds requestIds) := by
    refine Obeys.tryEach (fun _ _ _ => True) trivial ?_
    intro past chunk rest later found whole _
    exact obeys_request (putsJoins_of_none rfl) (fun _ => trivial) fun _ => trivial
  refine reads.bind fun _ result _ => ?_
  cases result with
  | ok ids => exact trivial
  | error error => exact trivial

theorem processPrequeueBatch_puts (eventId : String) (shard : Shard) :
    Obeys (PutsJoins valid) (fun _ _ => True) history (processPrequeueBatch eventId shard valid) := by
  refine (registeredIdsOrUnknown_puts _).bind fun _ registered _ => ?_
  simp only
  split_ifs with empty
  · exact trivial
  · refine obeys_request_bind (putsJoins_of_none rfl) (fun _ => trivial) fun payload => ?_
    split
    · exact trivial
    · refine (putPrequeues_puts shard _ (fun _ => mem_of_mem_groupOf)).bind fun _ result joined => ?_
      obtain ⟨written, failures⟩ := result
      simp only
      split_ifs with none
      · exact trivial
      · exact (fixupStragglers_puts eventId joined).bind fun _ _ _ => trivial

/-- **A batch puts rows of the joins that it accepts.** -/
theorem processBatch_puts (decode : DecodeJoin) (eventId : String) (shard : Shard)
    (records : List BatchRecord) :
    Obeys (PutsJoins (accepted decode eventId records)) (fun _ _ => True) history
      (processBatch decode eventId shard records) := by
  change Obeys _ _ _ (if (accepted decode eventId records).isEmpty then _ else _)
  split_ifs with empty
  · exact trivial
  · refine obeys_request_bind (putsJoins_of_none rfl) (fun _ => trivial) fun payload => ?_
    cases payload with
    | none => exact trivial
    | some item =>
        simp only [Option.map_some]
        split_ifs with opened registering
        · exact processLiveBatch_puts
        · exact processPrequeueBatch_puts eventId shard
        · exact trivial

end Joins

/-! ## Whose rows a run holds -/

/-- The joins of an id that batches accept carry one digest. -/
def OwnJoins (d : Deployment) (jobs : List Job) (requestId : RequestId) (digest : SecretDigest) :
    Prop :=
  ∀ shard records, Job.joinBatch shard records ∈ jobs → ∀ record ∈ d.accepted records,
    record.2.requestId = requestId → record.2.h = digest

/-- A job puts a row of a join that it accepted. -/
def PutsOwn (d : Deployment) (job : Job) (_ : History) (call : Call) : Prop :=
  ∀ row, call.puts = some row →
    ∃ shard records, job = .joinBatch shard records ∧ OfJoin (d.accepted records) row

/-- The rows of an id carry a digest. -/
structure Db.Carries (db : Db) (requestId : RequestId) (digest : SecretDigest) : Prop where
  prequeue : ∀ row, db.prequeue requestId = some row → row.h = some digest
  positions : ∀ row, db.positions requestId = some row → row.h = some digest

section Runs

variable {d : Deployment} {policy : RoomPolicy} {origin db : Db} {log older : List RoomEntry}
  {entry : RoomEntry} {requestId : RequestId} {digest : SecretDigest}

theorem program_puts (d : Deployment) (job : Job) :
    Obeys (PutsOwn d job) (fun _ _ => True) [] ((room d).program job) := by
  by_cases joins : ∃ shard records, job = .joinBatch shard records
  · obtain ⟨shard, records, rfl⟩ := joins
    have puts : Obeys (PutsJoins (d.accepted records)) (fun _ _ => True) [] _ :=
      processBatch_puts d.decode d.eventId shard records
    refine (puts.mono (fun _ _ lawful row same => ?_) fun _ _ _ => trivial).bind fun _ _ _ => trivial
    exact ⟨shard, records, rfl, lawful row same⟩
  · refine (program_obeys d job).mono (fun _ call lawful row same => ?_) fun _ _ _ => trivial
    cases call with
    | putPosition write =>
        obtain ⟨shard, records, batch⟩ := (show PutsPosition job _ write from lawful).batch
        exact absurd ⟨shard, records, batch⟩ joins
    | putPrequeue write =>
        obtain ⟨shard, records, batch⟩ := (show PutsPrequeue job _ write from lawful).batch
        exact absurd ⟨shard, records, batch⟩ joins
    | _ => cases same

/-- A run puts rows of an id with the digest of its joins. -/
theorem RoomRun.puts_own {c : Room} (run : RoomRun d policy origin c)
    (own : OwnJoins d c.jobs requestId digest) (member : entry ∈ c.log) {other : SecretDigest}
    (puts : entry.exchange.call.puts = some (requestId, other)) : other = digest := by
  obtain ⟨newer, older, whole⟩ := List.append_of_mem member
  have trace := System.Reaches.trace run (program_puts d)
  rw [whole] at trace
  obtain ⟨shard, records, job, record, accepted, same⟩ := trace.split.2.1 _ puts
  obtain ⟨id, h⟩ := Prod.mk.inj same
  have started : Job.joinBatch shard records ∈ c.jobs := by
    rw [← job]
    exact List.mem_of_getElem? (System.Reaches.job_of_entry run member)
  rw [← h]
  exact own shard records started record accepted id

/-- **Every row of an id carries the digest that its rows are put with.** -/
theorem RoomTrace.carries (seeded : Seeded origin) (trace : RoomTrace d policy origin log db)
    (own : ∀ entry ∈ log, ∀ other, entry.exchange.call.puts = some (requestId, other) →
      other = digest) : db.Carries requestId digest := by
  revert own
  refine trace.rule (motive := fun log db => (∀ entry ∈ log, ∀ other,
    entry.exchange.call.puts = some (requestId, other) → other = digest) →
      db.Carries requestId digest) ?_ ?_
  · refine fun _ => ⟨fun row found => ?_, fun row found => ?_⟩
    · rw [seeded.prequeue requestId] at found
      cases found
    · rw [seeded.positions requestId] at found
      cases found
  · intro entry older logged before own
    have carried := before [] older _ rfl logged.earlier fun earlier member =>
      own earlier (List.mem_cons_of_mem _ member)
    have here := own entry List.mem_cons_self
    refine ⟨fun row found => ?_, fun row found => ?_⟩
    · rcases logged.effect.prequeue_cases requestId with same | ⟨write, call, mine, -, written⟩
      · exact carried.prequeue row (same ▸ found)
      · obtain rfl := Option.some.inj (written.symm.trans found)
        refine congrArg some (here write.digest ?_)
        rw [call, ← mine]
        rfl
    · rcases logged.effect.positions_cases requestId with same | ⟨write, call, mine, -, written⟩ |
        ⟨position, granted, admitted, call, admits, written⟩
      · exact carried.positions row (same ▸ found)
      · obtain rfl := Option.some.inj (written.symm.trans found)
        refine congrArg some (here write.digest ?_)
        rw [call, ← mine]
        rfl
      · obtain rfl := Option.some.inj (written.symm.trans found)
        obtain ⟨-, -, ⟨absent, copied⟩ | ⟨issued, held, -, copied⟩⟩ := admitRow_eq_some admits
        · -- the admission read no position row, and the pre-queue row that it read carries the digest
          rcases logged.claimed_position call with ⟨old, oldRow, oldHeld, oldFound, -⟩ |
            ⟨-, -, read, readFound, readCarries⟩
          · obtain ⟨still, stillFound, -⟩ := (oldHeld.grows logged.earlier).positions _ _ oldFound
            rw [absent] at stillFound
            cases stillFound
          · rw [copied, ← readCarries, carried.prequeue read readFound]
        · rw [copied, carried.positions issued held]
          rfl

/-- The rows of an id carried the digest all along. -/
theorem Held.carries (seeded : Seeded origin) {old : Db} (held : Held d policy origin log old)
    (own : ∀ entry ∈ log, ∀ other, entry.exchange.call.puts = some (requestId, other) →
      other = digest) : old.Carries requestId digest := by
  obtain ⟨newer, oldest, rfl, earlier⟩ := held
  exact earlier.carries seeded fun entry member => own entry (List.mem_append_right _ member)

/-! ## What an admission reads of them -/

variable {thread : ℕ} {item : Item} {row : Option PositionItem}
  {prequeue : Option PreQueueItem}

/-- Why a position is not resolved. -/
theorem resolvePosition_error {hmac : Hmac} {counters : Counters} {positionRow : Option PositionRow}
    {denied : Denied} (refused : resolvePosition hmac counters prequeue positionRow = .error denied) :
    denied = .notRegistered ∨ denied = .notOpen ∨ denied = .corrupt := by
  cases positionRow with
  | some row =>
      rw [resolvePosition_some] at refused
      cases refused
  | none =>
      simp only [resolvePosition] at refused
      split at refused
      · exact .inl (Except.error.inj refused).symm
      · split at refused
        · cases refused
        · exact .inl (Except.error.inj refused).symm
        · exact .inr (.inl (Except.error.inj refused).symm)
        · exact .inr (.inr (Except.error.inj refused).symm)

/-- Without a row there is no refusal but one. -/
theorem decide_of_unregistered {hmac : Hmac} {digestOf : DigestOf} {counters : Counters}
    {positionRow : Option PositionRow} {presented : PossessionSecret} {now : ℕ} {denied other : Denied}
    (unregistered : storedDigest prequeue positionRow = .error other)
    (refused : counters.decide hmac digestOf prequeue positionRow presented now = .error denied) :
    denied = .notRegistered := by
  have missing : other = .notRegistered := by
    unfold storedDigest at unregistered
    split at unregistered
    · cases unregistered
    · cases unregistered
    · exact (Except.error.inj unregistered).symm
  simp only [Counters.decide, bind, Except.bind, unregistered] at refused
  rw [← Except.error.inj refused, missing]

/-- The digest that an admission reads is the one that the rows carry. -/
theorem AdmissionReads.storedDigest_eq
    (reads : AdmissionReads (history log thread) requestId item row prequeue)
    (trace : RoomTrace d policy origin log db)
    (carries : ∀ old, Held d policy origin log old → old.Carries requestId digest)
    {stored : Option SecretDigest}
    (found : storedDigest prequeue (row.map positionFromItem) = .ok stored) : stored = some digest := by
  cases row with
  | some row =>
      obtain ⟨old, held, stores⟩ := trace.read_position reads.position
      obtain rfl := Except.ok.inj found
      exact (carries old held).positions row stores
  | none =>
      obtain ⟨old, held, stores⟩ := trace.read_prequeue (reads.prequeue_read rfl)
      cases prequeue with
      | none => cases found
      | some registered =>
          obtain rfl := Except.ok.inj found
          exact (carries old held).prequeue registered stores

/-- The place that an admission resolves was given out. -/
theorem AdmissionReads.given (reads : AdmissionReads (history log thread) requestId item row prequeue)
    (seeded : Seeded origin) (trace : RoomTrace d policy origin log db) {position : ℕ}
    (resolved : resolvePosition d.hmac (d.parse item) prequeue (row.map positionFromItem) = .ok position) :
    GivenPlace d log db requestId position := by
  cases row with
  | some row =>
      obtain ⟨old, ⟨newer, older, rfl, earlier⟩, stores⟩ := trace.read_position reads.position
      rw [Option.map_some, resolvePosition_some] at resolved
      obtain rfl := Except.ok.inj resolved
      have given : GivenPlace d older old requestId row.queuePosition :=
        earlier.position_origin seeded stores
      exact given.mono (trace.grows earlier)
  | none =>
      obtain ⟨old, held, stores⟩ := trace.read_prequeue (reads.prequeue_read rfl)
      obtain ⟨counters, heldCounters, found⟩ := trace.read_counters reads.counters
      obtain ⟨registered, rfl, resolves⟩ := resolvePosition_none resolved
      have view : d.view counters = d.parse item := by rw [Deployment.view, found]; rfl
      rw [← view] at resolves
      refine .inl ⟨registered, (held.grows trace).prequeue _ _ stores, ?_⟩
      rw [resolvePrequeue_of_grows (heldCounters.grows trace) (opened_of_resolves resolves), resolves]

/-- No row that an admission reads is corrupt. -/
theorem AdmissionReads.not_corrupt (reads : AdmissionReads (history log thread) requestId item row prequeue)
    (seeded : Seeded origin) (trace : RoomTrace d policy origin log db) :
    resolvePosition d.hmac (d.parse item) prequeue (row.map positionFromItem) ≠ .error .corrupt := by
  intro corrupt
  cases row with
  | some row =>
      rw [Option.map_some, resolvePosition_some] at corrupt
      cases corrupt
  | none =>
      obtain ⟨old, held, stores⟩ := trace.read_prequeue (reads.prequeue_read rfl)
      obtain ⟨counters, heldCounters, found⟩ := trace.read_counters reads.counters
      have view : d.view counters = d.parse item := by rw [Deployment.view, found]; rfl
      cases prequeue with
      | none => cases corrupt
      | some registered =>
          have outside : (d.view counters).resolvePrequeue d.hmac registered = .error .badShard := by
            rw [view]
            simp only [Option.map_none, resolvePosition] at corrupt
            split at corrupt
            · cases corrupt
            · cases corrupt
            · cases corrupt
            · next same => exact same
          have opened : counters.Opened := by
            refine opened_of_openOutputs (d := d) fun unopened => ?_
            rw [Counters.resolvePrequeue, unopened] at outside
            cases outside
          have grows := heldCounters.grows trace
          rw [← resolvePrequeue_of_grows grows opened] at outside
          rcases trace.resolves seeded (grows.isOpened opened) ((held.grows trace).prequeue _ _ stores) with
            ⟨position, resolves⟩ | resolves
          · rw [resolves] at outside
            cases outside
          · rw [resolves] at outside
            cases outside

end Runs

/-- **The wait page of an identity whose joins are its holder's own never forgets it.** It sends the
visitor on, waits for the join or for the event, or shows a place that was given out to that id, behind
a cursor no further back than the number ahead tells, unless the tables or the signing failed. -/
theorem holder_keeps_place {d : Deployment} {origin : Db} (seeded : Seeded origin) {c : Room}
    (run : RoomRun d .free origin c) {identity : NoJs.Identity}
    (own : OwnJoins d c.jobs identity.requestId (d.digestOf identity.secret)) {thread : ℕ}
    {viewerIp : Option String} {now : ℕ} {draw : Option Shard} {admission : Admission}
    (returned : c.result thread = some (.generateToken identity.requestId identity.secret viewerIp now draw,
      .admission (.ok admission))) :
    admission = .signFailed ∨ (∃ credential, NoJs.outcome admission = .admits credential) ∨
      NoJs.outcome admission = .page .joining ∨ NoJs.outcome admission = .page .holding ∨
      ∃ position ahead, NoJs.outcome admission = .page (.queued position ahead) ∧
        GivenPlace d c.log c.state identity.requestId position ∧
        position ≤ c.state.servingCounter + ahead := by
  have trace := run.trace
  have puts : ∀ entry ∈ c.log, ∀ other, entry.exchange.call.puts = some (identity.requestId, other) →
      other = d.digestOf identity.secret := fun entry member other => run.puts_own own member
  obtain ⟨result, same, report⟩ := run.report (Config.result_eq_some.mp returned)
  obtain rfl := Outcome.admission.inj same
  cases admission with
  | admitted place expiresAt credential => exact .inr (.inl ⟨credential, rfl⟩)
  | signFailed => exact .inl rfl
  | eventNotFound =>
      obtain ⟨-, missing⟩ := report
      obtain ⟨old, held, absent⟩ := trace.read_counters missing
      obtain ⟨newer, older, whole, earlier⟩ := held
      exact absurd absent (earlier.exists_counters seeded)
  | refused denied =>
      obtain ⟨-, item, row, prequeue, reads, refused⟩ := report
      refine .inr (.inr ?_)
      cases stored : storedDigest prequeue (row.map positionFromItem) with
      | error other =>
          obtain rfl := decide_of_unregistered stored refused
          exact .inl rfl
      | ok digest =>
          obtain rfl := reads.storedDigest_eq trace (fun old held => held.carries seeded puts) stored
          rcases decide_eq_error stored refused with
            ⟨-, stranger⟩ | ⟨-, rfl | unresolved | ⟨place, there, rfl⟩⟩
          · exact absurd rfl stranger
          · exact .inr (.inl rfl)
          · rcases resolvePosition_error unresolved with rfl | rfl | rfl
            · exact .inl rfl
            · exact .inr (.inl rfl)
            · exact absurd unresolved (reads.not_corrupt seeded trace)
          · obtain ⟨counters, held, found⟩ := trace.read_counters reads.counters
            have behind := held.serving_le seeded trace
            refine .inr (.inr ⟨place, _, rfl, reads.given seeded trace there, ?_⟩)
            rw [← Deployment.parse_serving (d := d) found] at behind
            simp only [saturatingSub]
            omega

/-- Whether the joins of an id carry one digest. -/
def ownsJoins (d : Deployment) (requestId : RequestId) (digest : SecretDigest) : Job → Bool
  | .joinBatch _ records => (d.accepted records).all fun record =>
      decide (record.2.requestId = requestId → record.2.h = digest)
  | _ => true

theorem ownJoins_of_ownsJoins {d : Deployment} {jobs : List Job} {requestId : RequestId}
    {digest : SecretDigest} (checked : jobs.all (ownsJoins d requestId digest)) :
    OwnJoins d jobs requestId digest := by
  intro shard records started record member same
  have here := List.all_eq_true.mp checked _ started
  exact of_decide_eq_true (List.all_eq_true.mp here record member) same

/-- What Alice keeps in her cookie. -/
def Sample.aliceIdentity : NoJs.Identity := ⟨alice, aliceSecret⟩

/-- Alice has joined, and the wait page shows her that nobody is ahead of place 0. -/
theorem holder_keeps_place_sample : ∃ c : Room, RoomRun Sample.deployment .free Sample.origin c ∧
    c.result 2 = some (Sample.askAlice, .admission (.ok (.refused (.stillQueued 0 0)))) ∧
    GivenPlace Sample.deployment c.log c.state Sample.alice 0 := by
  obtain ⟨c, run, good⟩ := System.exists_reaches_of_run
    (show ((room Sample.deployment).run .free (.initial Sample.origin)
        (Sample.placed ++ [.start Sample.askAlice] ++ Sample.commits 2 3)).any
      (fun c => Sample.askedAlice c 2 (.refused (.stillQueued 0 0)) &&
        c.jobs.all (ownsJoins Sample.deployment Sample.alice
          (Sample.deployment.digestOf Sample.aliceSecret))) by decide +kernel)
  obtain ⟨asked, owned⟩ := Bool.and_eq_true_iff.mp good
  have returned := Config.result_eq_some.mpr (Sample.ended_of_askedAlice asked)
  have own : OwnJoins Sample.deployment c.jobs Sample.aliceIdentity.requestId
      (Sample.deployment.digestOf Sample.aliceIdentity.secret) := ownJoins_of_ownsJoins owned
  refine ⟨c, run, returned, ?_⟩
  rcases holder_keeps_place Sample.origin_seeded run own returned with
    unsigned | ⟨credential, admitted⟩ | joining | holding | ⟨position, ahead, queued, given, -⟩
  · cases unsigned
  · cases admitted
  · cases joining
  · cases holding
  · obtain ⟨rfl, -⟩ := NoJs.WaitPage.queued.inj (NoJs.WaitOutcome.page.inj queued)
    exact given

end WaitingRoom
