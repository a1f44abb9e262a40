import WaitingRoom.Protocol.Rows

/-!
# A place is redeemed with the secret it was registered with

The digest that an admission verifies is that of the row that answers the position: the position
row when there is one, else the pre-queue row. A live join of an id that holds a counted pre-queue
row writes a position row with its own digest, and takes the place from its holder
(`join_swaps_digest`). While no join does, the digest of the first row is the one every later
admission verifies (`possession_kept`).
-/

set_option autoImplicit false

namespace WaitingRoom

open Dynamo Concurrency

/-- A job that made no call so far, and whose calls then see the tables as they are. -/
structure ReadsLater (c later : Room) (thread : ℕ) : Prop where
  unread : history c.log thread = []
  fresh : ∀ entry ∈ later.log, entry.thread = thread → succeeded entry.exchange = true →
    entry.exchange.answer = (perform entry.exchange.call entry.before).1

/-- The first row of an id carries a digest, and a pre-queue row is no live join when the event has
settled. -/
inductive Registered (d : Deployment) (db settled : Db) (requestId : RequestId)
    (digest : SecretDigest) : Prop where
  | prequeue {row : PreQueueItem} (found : db.prequeue requestId = some row)
      (carries : row.h = some digest) (alone : db.positions requestId = none)
      (counted : (d.view settled).resolvePrequeue d.hmac row ≠ .ok .liveJoin)
  | position {row : PositionItem} (found : db.positions requestId = some row)
      (carries : row.h = some digest) (alone : db.prequeue requestId = none)

/-- A join writes the position row of an id whose counted pre-queue row carries another digest. -/
def SwapsDigest (d : Deployment) (requestId : RequestId) (entry : RoomEntry) : Prop :=
  ∃ write row, entry.exchange.call = .putPosition write ∧ write.requestId = requestId ∧
    entry.after.positions requestId ≠ entry.before.positions requestId ∧
    entry.before.prequeue requestId = some row ∧
    (∃ position, OwnPosition d entry.before requestId position) ∧ row.h ≠ some write.digest

section Possession

variable {d : Deployment} {policy : RoomPolicy} {origin start db settled : Db}
  {log newer older : List RoomEntry} {requestId : RequestId} {digest : SecretDigest}

/-- **The digest of a counted row is kept**: every position row of its id carries it. -/
theorem RoomTrace.digest_kept (seeded : Seeded origin) (earlier : RoomTrace d policy origin older start)
    (trace : RoomTrace d policy origin (newer ++ older) db) (grows : db.Grows settled)
    {row : PreQueueItem} (found : start.prequeue requestId = some row)
    (carries : row.h = some digest) (alone : start.positions requestId = none)
    (counted : (d.view settled).resolvePrequeue d.hmac row ≠ .ok .liveJoin)
    (kept : ∀ entry ∈ newer, ¬ SwapsDigest d requestId entry) {placed : PositionItem}
    (stored : db.positions requestId = some placed) : placed.h = some digest := by
  induction newer generalizing db placed with
  | nil =>
      obtain rfl := earlier.state_unique trace
      rw [alone] at stored
      cases stored
  | cons entry newer ih =>
      have logged := RoomTrace.logged_head trace
      obtain rfl := trace.after_of_split
      have before : ∀ {placed}, entry.before.positions requestId = some placed →
          placed.h = some digest := fun stored =>
        ih logged.earlier (logged.grows.trans grows)
          (fun later member => kept later (List.mem_cons_of_mem _ member)) stored
      have present : entry.before.prequeue requestId = some row :=
        (logged.earlier.grows earlier).prequeue requestId row found
      rcases logged.effect.positions_cases requestId with same | ⟨write, call, mine, absent, written⟩ |
        ⟨position, granted, admitted, call, admits, written⟩
      · exact before (same ▸ stored)
      · obtain rfl := Option.some.inj (written.symm.trans stored)
        have latest : RoomTrace d policy origin ([] ++ entry :: (newer ++ older)) entry.after := trace
        have opened : entry.before.Opened := latest.opened_before_put seeded call
        have own : ∃ position, OwnPosition d entry.before requestId position := by
          rcases logged.earlier.resolves seeded opened present with ⟨position, resolves⟩ | straggles
          · exact ⟨position, row, present, resolves⟩
          · rw [← resolvePrequeue_of_grows (logged.grows.trans grows) opened] at straggles
            exact absurd straggles counted
        by_contra other
        refine kept entry List.mem_cons_self ⟨write, row, call, mine, ?_, present, own, ?_⟩
        · rw [absent, written]
          nofun
        · rw [carries]
          exact fun same => other same.symm
      · obtain rfl := Option.some.inj (written.symm.trans stored)
        obtain ⟨-, -, ⟨absent, copied⟩ | ⟨issued, held, -, copied⟩⟩ := admitRow_eq_some admits
        · rcases logged.claimed_position call with ⟨old, oldRow, oldHeld, oldFound, -⟩ |
            ⟨-, -, read, readFound, readCarries⟩
          · obtain ⟨still, stillFound, -⟩ := (oldHeld.grows logged.earlier).positions _ _ oldFound
            rw [absent] at stillFound
            cases stillFound
          · obtain rfl := Option.some.inj (readFound.symm.trans present)
            rw [copied, ← readCarries, carries]
        · rw [copied, before held]
          rfl

/-- What a later job reads, it reads from a state in between. -/
theorem ReadsLater.read {c later : Room} {thread : ℕ} (reads : ReadsLater c later thread)
    (run : RoomRun d policy origin c) (goesOn : (room d).Reaches policy c later) {call : Call}
    {payload : Payload call} (member : answered call (.ok payload) ∈ history later.log thread) :
    ∃ newest between db, later.log = newest ++ (between ++ c.log) ∧
      RoomTrace d policy origin (between ++ c.log) db ∧ c.state.Grows db ∧ db.Grows later.state ∧
      (perform call db).1 = .ok payload := by
  obtain ⟨newer, whole, trace⟩ := run.extend goesOn
  obtain ⟨entry, inLog, mine, exchange⟩ := mem_history.mp member
  have after : entry ∈ newer := by
    rw [whole] at inLog
    refine (List.mem_append.mp inLog).resolve_right fun old => ?_
    have told := mem_history_of_entry old
    rw [mine, reads.unread] at told
    cases told
  obtain ⟨newest, between, rfl⟩ := List.append_of_mem after
  have regrouped : RoomTrace d policy origin (newest ++ entry :: (between ++ c.log)) later.state := by
    simpa using trace
  have earlier := regrouped.logged.earlier
  have answer := reads.fresh entry inLog mine (by rw [exchange]; rfl)
  refine ⟨newest ++ [entry], between, entry.before, by simpa using whole, earlier,
    earlier.grows run.trace, regrouped.before_grows (by simp), ?_⟩
  rw [exchange] at answer
  exact answer.symm

/-- **The digest that a later admission verifies** is the registered one. -/
theorem ReadsLater.stored_digest {c later : Room} {thread : ℕ} (reads : ReadsLater c later thread)
    (seeded : Seeded origin) (run : RoomRun d policy origin c)
    (goesOn : (room d).Reaches policy c later)
    (registered : Registered d c.state later.state requestId digest)
    (kept : ∀ entry ∈ later.log, ¬ SwapsDigest d requestId entry) {item : Item}
    {row : Option PositionItem} {prequeue : Option PreQueueItem}
    (read : AdmissionReads (history later.log thread) requestId item row prequeue) :
    storedDigest prequeue (row.map positionFromItem) = .ok (some digest) := by
  obtain ⟨newest, between, db, whole, trace, since, until_, positioned⟩ :=
    reads.read run goesOn read.position
  have positions : db.positions requestId = row := Except.ok.inj positioned
  cases registered with
  | prequeue found carries alone counted =>
      cases row with
      | some placed =>
          have carried := RoomTrace.digest_kept seeded run.trace trace until_ found carries alone
            counted (fun entry member => kept entry (by rw [whole]; simp [member])) positions
          exact congrArg Except.ok carried
      | none =>
          obtain ⟨_, _, db', -, -, since', -, registration⟩ :=
            reads.read run goesOn (read.prequeue_read rfl)
          have present : db'.prequeue requestId = prequeue := Except.ok.inj registration
          rw [since'.prequeue requestId _ found] at present
          rw [← present]
          exact congrArg Except.ok carries
  | position found carries alone =>
      obtain ⟨placed, stored, keeps, -⟩ := since.positions requestId _ found
      rw [positions] at stored
      rw [stored]
      exact congrArg Except.ok (keeps digest carries)

end Possession

/-- **Knowing an id is not enough to take or destroy its place** while no join writes a position row
with another digest for an id that holds a counted pre-queue row: every later admission of a
registered id verifies the secret against the digest of the id's first row. -/
theorem possession_kept {d : Deployment} {origin : Db} (seeded : Seeded origin) {c later : Room}
    (run : RoomRun d .free origin c) (goesOn : (room d).Reaches .free c later)
    {requestId : RequestId} {digest : SecretDigest}
    (registered : Registered d c.state later.state requestId digest)
    (kept : ∀ entry ∈ later.log, ¬ SwapsDigest d requestId entry) {thread : ℕ}
    {secret : PossessionSecret} {viewerIp : Option String} {now : ℕ} {draw : Option Shard}
    {admission : Admission} (reads : ReadsLater c later thread)
    (returned : later.threads[thread]? =
      some ⟨.generateToken requestId secret viewerIp now draw, .done (.admission (.ok admission))⟩) :
    (d.digestOf secret = digest → admission ≠ .refused .notHolder) ∧
      (d.digestOf secret ≠ digest →
        ∀ position expiresAt credential, admission ≠ .admitted position expiresAt credential) := by
  have report := RoomRun.report (System.Reaches.trans run goesOn) returned
  obtain ⟨result, same, report⟩ := report
  obtain rfl := Outcome.admission.inj same
  refine ⟨?_, ?_⟩
  · rintro holds rfl
    obtain ⟨-, item, row, prequeue, read, refused⟩ := report
    rcases decide_eq_error (reads.stored_digest seeded run goesOn registered kept read) refused with
      ⟨-, other⟩ | ⟨-, absurdly | unresolved | ⟨position, -, absurdly⟩⟩
    · exact other (congrArg some holds.symm)
    · cases absurdly
    · exact resolvePosition_ne_notHolder unresolved
    · cases absurdly
  · rintro other position expiresAt credential rfl
    obtain ⟨-, grant, claim, claimed, -⟩ := report
    obtain ⟨item, row, prequeue, read, granted⟩ := claimed.granted
    obtain ⟨stored, holder, -, -⟩ := decide_eq_ok granted
    rw [reads.stored_digest seeded run goesOn registered kept read] at stored
    obtain rfl := Option.some.inj (Except.ok.inj stored)
    exact other holder.symm

/-! ## Sample runs -/

/-- The policy under which every call commits. -/
def prompt : RoomPolicy where
  starts _ _ := True
  steps _ _ _ _ _ choice := choice = .commit

instance (jobs : List Job) (job : Job) : Decidable (prompt.starts jobs job) := isTrue trivial

instance (log : List RoomEntry) (db : Db) (thread : ℕ) (job : Job) (call : Call) (choice : Choice) :
    Decidable (prompt.steps log db thread job call choice) :=
  match choice with
  | .commit => isTrue rfl
  | .lost _ | .landed _ | .stale _ | .unprocessed _ => isFalse nofun

/-- A job that has not called yet when every call commits reads later what there is. -/
theorem readsLater_of_prompt {d : Deployment} {origin : Db} {c later : Room}
    (run : RoomRun d prompt origin c) (goesOn : (room d).Reaches prompt c later) {thread : ℕ}
    (unread : (history c.log thread).isEmpty) : ReadsLater c later thread where
  unread := List.isEmpty_iff.mp unread
  fresh entry member _ _ := by
    obtain ⟨newer, older, whole⟩ := List.append_of_mem member
    have trace := RoomRun.trace (System.Reaches.trans run goesOn)
    rw [whole] at trace
    obtain ⟨-, -, choice, committed, responds⟩ := trace.split
    obtain rfl : choice = .commit := committed
    exact (congrArg Prod.fst (Option.some.inj responds)).symm

/-- A call that is no join's position row. -/
def putsNoPosition (entry : RoomEntry) : Bool :=
  match entry.exchange.call with
  | .putPosition _ => false
  | _ => true

theorem swaps_nothing_of_check {d : Deployment} {log : List RoomEntry} {requestId : RequestId}
    (quiet : log.all putsNoPosition) : ∀ entry ∈ log, ¬ SwapsDigest d requestId entry := by
  rintro entry member ⟨write, row, call, -⟩
  have here := List.all_eq_true.mp quiet entry member
  rw [putsNoPosition, call] at here
  cases here

/-- Alice has her counted row, and no other. -/
def registeredAlice (db settled : Db) : Bool :=
  match db.prequeue Sample.alice with
  | some row => decide (row.h = some Sample.aliceDigest ∧ db.positions Sample.alice = none ∧
      (Sample.deployment.view settled).resolvePrequeue Sample.deployment.hmac row ≠ .ok .liveJoin)
  | none => false

theorem registered_of_registeredAlice {db settled : Db} (holds : registeredAlice db settled) :
    Registered Sample.deployment db settled Sample.alice Sample.aliceDigest := by
  unfold registeredAlice at holds
  split at holds
  · next row found =>
      obtain ⟨carries, alone, counted⟩ := of_decide_eq_true holds
      exact .prequeue found carries alone counted
  · cases holds

namespace Sample

/-- Alice joins, and the event opens. -/
def placed : List (Action Job Choice) :=
  [.start (.joinBatch shard [⟨"m1", "alice"⟩])] ++ commits 0 5 ++ [.start (.openEvent seed .ascending)] ++
    commits 1 11

/-- A join with Alice's id and the digest of another's secret. -/
def joinAsAlice : List (Action Job Choice) :=
  [.start (.joinBatch shard [⟨"m2", "bob as alice"⟩])] ++ commits 2 3

/-- Alice asks to be admitted, with her own secret. -/
def askAlice : Job := .generateToken alice aliceSecret none 0 (some shard)

/-- What she was told. -/
def askedAlice (c : Room) (thread : ℕ) (told : Admission) : Bool :=
  match c.result thread with
  | some (.generateToken requestId secret viewerIp now draw, .admission (.ok admission)) =>
      decide (requestId = alice ∧ secret = aliceSecret ∧ viewerIp = none ∧ now = 0 ∧
        draw = some shard ∧ admission = told)
  | _ => false

theorem ended_of_askedAlice {c : Room} {thread : ℕ} {told : Admission}
    (asked : askedAlice c thread told) :
    c.threads[thread]? = some ⟨askAlice, .done (.admission (.ok told))⟩ := by
  unfold askedAlice at asked
  split at asked
  · next ended =>
      obtain ⟨rfl, rfl, rfl, rfl, rfl, rfl⟩ := of_decide_eq_true asked
      exact Config.result_eq_some.mp ended
  · cases asked

end Sample

/-- A stranger who knows Alice's id joins with it after the open: her own secret no longer proves
that the place is hers. -/
theorem join_swaps_digest : ∃ c later : Room, RoomRun Sample.deployment .free Sample.origin c ∧
    (room Sample.deployment).Reaches .free c later ∧
    Registered Sample.deployment c.state later.state Sample.alice Sample.aliceDigest ∧
    ReadsLater c later 3 ∧ Sample.deployment.digestOf Sample.aliceSecret = Sample.aliceDigest ∧
    later.threads[3]? = some ⟨Sample.askAlice, .done (.admission (.ok (.refused .notHolder)))⟩ := by
  obtain ⟨c, run, good⟩ := System.exists_reaches_of_run
    (show ((room Sample.deployment).run prompt (.initial Sample.origin) Sample.placed).any (fun c =>
      (history c.log 3).isEmpty && ((room Sample.deployment).run prompt c
        (Sample.joinAsAlice ++ [.start Sample.askAlice] ++ Sample.commits 3 2)).any (fun later =>
          registeredAlice c.state later.state &&
            Sample.askedAlice later 3 (.refused .notHolder))) by decide +kernel)
  obtain ⟨unread, suffix⟩ := Bool.and_eq_true_iff.mp good
  obtain ⟨later, goesOn, good⟩ := System.exists_reaches_of_run suffix
  obtain ⟨registered, asked⟩ := Bool.and_eq_true_iff.mp good
  exact ⟨c, later, run.free, goesOn.free, registered_of_registeredAlice registered,
    readsLater_of_prompt run goesOn unread, by decide +kernel, Sample.ended_of_askedAlice asked⟩

/-- Nobody joins again: Alice's own secret finds her queued, and not a stranger. -/
theorem possession_kept_sample : ∃ c later : Room,
    RoomRun Sample.deployment .free Sample.origin c ∧
    (room Sample.deployment).Reaches .free c later ∧
    later.threads[2]? = some ⟨Sample.askAlice, .done (.admission (.ok (.refused (.stillQueued 0 0))))⟩ ∧
    (Sample.deployment.digestOf Sample.aliceSecret = Sample.aliceDigest →
      Admission.refused (.stillQueued 0 0) ≠ .refused .notHolder) := by
  obtain ⟨c, run, good⟩ := System.exists_reaches_of_run
    (show ((room Sample.deployment).run prompt (.initial Sample.origin) Sample.placed).any (fun c =>
      (history c.log 2).isEmpty && ((room Sample.deployment).run prompt c
        ([.start Sample.askAlice] ++ Sample.commits 2 3)).any (fun later =>
          registeredAlice c.state later.state && later.log.all putsNoPosition &&
            Sample.askedAlice later 2 (.refused (.stillQueued 0 0)))) by decide +kernel)
  obtain ⟨unread, suffix⟩ := Bool.and_eq_true_iff.mp good
  obtain ⟨later, goesOn, good⟩ := System.exists_reaches_of_run suffix
  simp only [Bool.and_eq_true] at good
  obtain ⟨⟨registered, quiet⟩, asked⟩ := good
  have ended := Sample.ended_of_askedAlice asked
  exact ⟨c, later, run.free, goesOn.free, ended, (possession_kept Sample.origin_seeded run.free
    goesOn.free (registered_of_registeredAlice registered) (swaps_nothing_of_check quiet)
    (readsLater_of_prompt run goesOn unread) ended).1⟩

end WaitingRoom
