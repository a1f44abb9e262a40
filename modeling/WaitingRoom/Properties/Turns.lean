import WaitingRoom.Properties.Arrivals
import WaitingRoom.Properties.Places
import WaitingRoom.Properties.Positions
import WaitingRoom.Protocol.Releases
import Mathlib.Data.Set.Card

/-!
# Whose turn it is

Batches, opens, admissions and passes run among each other, and their calls fail. The visitors that
were granted an admission are never more than the cursor (`admitted_within_cursor`), whoever is told
to wait after another visitor was admitted stands behind that visitor (`nobody_is_overtaken`), and
the cursor that a page reads, however old, is never ahead of the one that decides on its admission
(`turn_is_kept`).
-/

set_option autoImplicit false

namespace WaitingRoom

open Dynamo Concurrency

section Turns

variable {d : Deployment} {policy : RoomPolicy} {origin old db : Db} {log newer older : List RoomEntry}
  {requestId : RequestId} {position : ℕ}

/-! ## The cursor -/

/-- What a reader parses of the cursor is the cursor. -/
theorem RoomTrace.cursor_eq (seeded : Seeded origin) (trace : RoomTrace d policy origin log db) :
    db.cursor = db.servingCounter := by
  obtain ⟨cursor, inside, stored⟩ := (trace.cursor seeded).whole
  rw [cursor_of_attr stored, Db.servingCounter, reading_of_attr stored inside]

/-- The cursor that a reader parses only grows. -/
theorem RoomTrace.serving_grows (seeded : Seeded origin)
    (trace : RoomTrace d policy origin (newer ++ older) db)
    (earlier : RoomTrace d policy origin older old) : old.servingCounter ≤ db.servingCounter := by
  have grown := trace.cursor_grows seeded earlier
  rw [earlier.cursor_eq seeded, trace.cursor_eq seeded] at grown
  exact_mod_cast grown

theorem Held.serving_le (seeded : Seeded origin) (held : Held d policy origin log old)
    (trace : RoomTrace d policy origin log db) : old.servingCounter ≤ db.servingCounter := by
  obtain ⟨newer, older, rfl, earlier⟩ := held
  exact trace.serving_grows seeded earlier

/-- The cursor of an item that was read is that of a state the tables held. -/
theorem Deployment.parse_serving {item : Item} (found : old.counters = some item) :
    (d.parse item).servingCounter = old.servingCounter := by
  rw [Db.servingCounter, Db.reading, found]
  rfl

/-- Where a sequence of checks fails. -/
theorem bind_eq_error {ε α β : Type} {first : Except ε α} {next : α → Except ε β} {error : ε}
    (failed : (first >>= next) = .error error) :
    first = .error error ∨ ∃ value, first = .ok value ∧ next value = .error error := by
  cases first with
  | error other =>
      obtain rfl : other = error := Except.error.inj failed
      exact .inl rfl
  | ok value => exact .inr ⟨value, rfl, failed⟩

/-- Who is told to wait has a position that the cursor has not passed. -/
theorem decide_eq_stillQueued {hmac : Hmac} {digestOf : DigestOf} {counters : Counters}
    {prequeue : Option PreQueueItem} {positionRow : Option PositionRow} {presented : PossessionSecret}
    {now place serving : ℕ}
    (refused : counters.decide hmac digestOf prequeue positionRow presented now =
      .error (.stillQueued place serving)) :
    serving = counters.servingCounter ∧ serving ≤ place := by
  rcases bind_eq_error refused with stored | ⟨stored, -, refused⟩
  · unfold storedDigest at stored
    split at stored <;> cases stored
  rcases bind_eq_error refused with held | ⟨digest, -, refused⟩
  · unfold verifyPossession at held
    split at held
    · split_ifs at held
      cases held
    · cases held
  rcases bind_eq_error refused with admits | ⟨-, -, refused⟩
  · unfold checkAdmitting at admits
    split at admits
    · cases admits
    · cases admits
    · split_ifs at admits
      cases admits
  rcases bind_eq_error refused with resolved | ⟨position, -, refused⟩
  · cases positionRow with
    | some row =>
        rw [resolvePosition_some] at resolved
        cases resolved
    | none =>
        simp only [resolvePosition] at resolved
        split at resolved
        · cases resolved
        · split at resolved <;> cases resolved
  · split_ifs at refused with queued
    obtain ⟨rfl, rfl⟩ := Denied.stillQueued.inj (Except.error.inj refused)
    exact ⟨rfl, queued⟩

/-! ## Places that were given out -/

/-- A place was given out to an id: its pre-queue row resolves to it, or a batch put it. -/
def GivenPlace (d : Deployment) (log : List RoomEntry) (db : Db) (requestId : RequestId)
    (position : ℕ) : Prop :=
  OwnPosition d db requestId position ∨ LivePosition log requestId position

theorem GivenPlace.mono (given : GivenPlace d older old requestId position)
    (grows : old.Grows db) : GivenPlace d (newer ++ older) db requestId position :=
  given.imp (fun own => own.grows grows) fun live => live.mono

/-- A place is given out to one id. -/
theorem GivenPlace.unique (seeded : Seeded origin) (trace : RoomTrace d policy origin log db)
    {requestId' : RequestId} (given : GivenPlace d log db requestId position)
    (given' : GivenPlace d log db requestId' position) : requestId = requestId' := by
  rcases given with own | live
  · rcases given' with own' | live'
    · exact trace.ownPosition_unique seeded own own'
    · exact (trace.ownPosition_ne_live seeded own live').elim
  · rcases given' with own' | live'
    · exact (trace.ownPosition_ne_live seeded own' live).elim
    · obtain ⟨entry, inLog, write, call, rfl, same⟩ := live
      obtain ⟨entry', inLog', write', call', rfl, same'⟩ := live'
      rw [trace.putPosition_unique seeded inLog inLog' call call' (same.trans same'.symm)]

/-- What an admission was granted for was given out, and the cursor is past it. -/
theorem Claimed.given {thread : ℕ} {secret : PossessionSecret} {now : ℕ} {draw : Option Shard}
    {grant : Grant} {claim : Except StoreError AdmissionClaim}
    (claimed : Claimed d requestId secret now draw (history log thread) grant claim)
    (seeded : Seeded origin) (trace : RoomTrace d policy origin log db) :
    GivenPlace d log db requestId grant.position ∧ grant.position < db.servingCounter := by
  obtain ⟨item, row, prequeue, reads, granted⟩ := claimed.granted
  obtain ⟨-, -, -, below⟩ := decide_eq_ok granted
  obtain ⟨counters, held, found⟩ := trace.read_counters reads.counters
  rw [Deployment.parse_serving found] at below
  refine ⟨?_, below.trans_le (held.serving_le seeded trace)⟩
  obtain ⟨counted, before, whole, -, -⟩ := claimed.claimed
  have told : answered (.claimAdmission requestId grant.position grant.digest) claim ∈
      history log thread := by
    rw [whole]
    exact List.mem_append_right _ List.mem_cons_self
  obtain ⟨newer, entry, older, rfl, -, exchange, logged⟩ := trace.logged_of_history told
  have call : entry.exchange.call = .claimAdmission requestId grant.position grant.digest := by
    rw [exchange]
  rcases logged.claimed_position call with ⟨old, row, ⟨between, oldest, rfl, once⟩, stored, same, -⟩ |
    ⟨-, own, -⟩
  · rw [← same]
    have given : GivenPlace d oldest old requestId row.queuePosition := once.position_origin seeded stored
    have whole : newer ++ entry :: (between ++ oldest) = (newer ++ entry :: between) ++ oldest := by simp
    rw [whole] at trace ⊢
    exact given.mono (trace.grows once)
  · exact .inl (own.grows (trace.before_grows (by simp)))

/-- A job that had made no call made all of its calls later. -/
theorem mem_newer {entry : RoomEntry} (member : entry ∈ newer ++ older)
    (unread : history older entry.thread = []) : entry ∈ newer := by
  refine (List.mem_append.mp member).resolve_right fun old => ?_
  have before := mem_history_of_entry old
  rw [unread] at before
  cases before

/-- A strongly consistent read of the counters, by a job that had made no call, is of a state that
came later. -/
theorem RoomRun.counters_later {c later : Room} (run : RoomRun d policy origin c)
    (goesOn : (room d).Reaches policy c later) {thread : ℕ} (unread : history c.log thread = [])
    {item : Option Item}
    (told : answered (.getCounters true) (.ok item) ∈ history later.log thread) :
    ∃ newer older, ∃ db, later.log = newer ++ (older ++ c.log) ∧
      RoomTrace d policy origin (older ++ c.log) db ∧ db.counters = item := by
  obtain ⟨newer, whole, trace⟩ := run.extend goesOn
  obtain ⟨entry, inLog, mine, exchange⟩ := mem_history.mp told
  rw [whole] at inLog
  obtain ⟨newest, between, rfl⟩ := List.append_of_mem (mem_newer inLog (by rw [mine, unread]))
  have regrouped : RoomTrace d policy origin (newest ++ entry :: (between ++ c.log)) later.state := by
    simpa using trace
  have answer := regrouped.logged.committed_answer exchange rfl (by intro ids same; cases same)
  exact ⟨newest ++ [entry], between, entry.before, by simpa using whole, regrouped.logged.earlier,
    (Except.ok.inj answer).symm⟩

/-- A place that was given out is within the line. -/
theorem GivenPlace.le_line (given : GivenPlace d log db requestId position) (seeded : Seeded origin)
    (trace : RoomTrace d policy origin log db) : (position : ℚ) ≤ db.line := by
  rcases given with own | ⟨entry, inLog, write, call, -, rfl⟩
  · obtain ⟨counts, seed, published⟩ := (trace.opening seeded).published own.opened
    have behind := trace.startsBehind seeded _ published.outputs
    have size : ((∑ shard, counts shard : ℕ) : ℚ) ≤ db.line := behind
    exact (Nat.cast_le.mpr (trace.ownPosition_lt seeded published own).le).trans size
  · obtain ⟨newer, older, rfl⟩ := List.append_of_mem inLog
    obtain ⟨claim, takes, -⟩ := trace.putPosition_takes seeded call
    obtain ⟨taken, rest, size, -, -, -, room, number, within⟩ := takes.position
    obtain ⟨newest, oldest, whole, logged⟩ := trace.logged_of_mem
      (List.mem_append_right newer (List.mem_cons_of_mem entry takes.member))
    have grown : claim.after.line ≤ db.line := by
      rw [whole] at trace
      exact trace.line_grows seeded trace.at_entry
    have index : (taken.length : ℚ) + 1 ≤ size := by exact_mod_cast room
    linarith

end Turns

/-- **The visitors that were granted an admission are never more than the cursor.** -/
theorem admitted_within_cursor {d : Deployment} {origin : Db} (seeded : Seeded origin) {c : Room}
    (run : RoomRun d .free origin c) :
    (grantedIds c).Finite ∧ (grantedIds c).ncard ≤ c.state.servingCounter := by
  have trace := run.trace
  have given : ∀ requestId ∈ grantedIds c, ∃ position, GivenPlace d c.log c.state requestId position ∧
      position < c.state.servingCounter := by
    rintro requestId ⟨thread, secret, viewerIp, now, draw, result, returned, granted⟩
    obtain ⟨result', same, report⟩ := run.report (Config.result_eq_some.mp returned)
    obtain rfl := Outcome.admission.inj same
    obtain ⟨grant, claim, claimed⟩ := report.claimed granted
    exact ⟨grant.position, claimed.given seeded trace⟩
  choose! place placed below using given
  have apart : Set.InjOn place (grantedIds c) := by
    intro requestId member requestId' member' same
    have there := placed requestId' member'
    rw [← same] at there
    exact (placed requestId member).unique seeded trace there
  have inside : Set.MapsTo place (grantedIds c) (Set.Iio c.state.servingCounter) := below
  refine ⟨Set.Finite.of_injOn inside apart (Set.finite_Iio _), ?_⟩
  calc (grantedIds c).ncard ≤ (Set.Iio c.state.servingCounter).ncard :=
        Set.ncard_le_ncard_of_injOn place inside apart (Set.finite_Iio _)
    _ = c.state.servingCounter := by
        rw [Set.ncard_eq_toFinset_card', Set.toFinset_Iio, Nat.card_Iio]

/-- **Whoever is told to wait after another visitor was admitted stands behind that visitor.** -/
theorem nobody_is_overtaken {d : Deployment} {origin : Db} (seeded : Seeded origin) {c later : Room}
    (run : RoomRun d .free origin c) (goesOn : (room d).Reaches .free c later)
    {first second : ℕ} {requestId requestId' : RequestId} {secret secret' : PossessionSecret}
    {viewerIp viewerIp' : Option String} {now now' : ℕ} {draw draw' : Option Shard}
    {position expiresAt place serving : ℕ} {credential : String}
    (admitted : c.result first = some (.generateToken requestId secret viewerIp now draw,
      .admission (.ok (.admitted position expiresAt credential))))
    (unread : history c.log second = [])
    (waits : later.result second = some (.generateToken requestId' secret' viewerIp' now' draw',
      .admission (.ok (.refused (.stillQueued place serving))))) :
    position < serving ∧ serving ≤ place := by
  obtain ⟨result, same, report⟩ := run.report (Config.result_eq_some.mp admitted)
  obtain rfl := Outcome.admission.inj same
  obtain ⟨-, grant, claim, claimed, rfl⟩ := report
  obtain ⟨-, below⟩ := claimed.given seeded run.trace
  obtain ⟨result', same', report'⟩ := RoomRun.report (System.Reaches.trans run goesOn)
    (Config.result_eq_some.mp waits)
  obtain rfl := Outcome.admission.inj same'
  obtain ⟨-, item, row, prequeue, reads, refused⟩ := report'
  obtain ⟨rfl, waiting⟩ := decide_eq_stillQueued refused
  obtain ⟨newer, older, db, -, trace, found⟩ := run.counters_later goesOn unread reads.counters
  refine ⟨?_, waiting⟩
  rw [Deployment.parse_serving found]
  exact below.trans_le (trace.serving_grows seeded run.trace)

/-- **Whoever joins later stands behind**: a batch that had made no call when a place was given out
puts its visitors behind it. -/
theorem later_joins_stand_behind {d : Deployment} {origin : Db} (seeded : Seeded origin) {c later : Room}
    (run : RoomRun d .free origin c) (goesOn : (room d).Reaches .free c later)
    {requestId : RequestId} {position : ℕ}
    (placed : position ∈ positionsOf d c.state requestId) {entry : RoomEntry}
    (member : entry ∈ later.log) (unread : history c.log entry.thread = []) {write : PositionWrite}
    (puts : entry.exchange.call = .putPosition write) : position < write.position := by
  obtain ⟨newer, whole, trace⟩ := run.extend goesOn
  rw [whole] at member
  obtain ⟨newest, between, rfl⟩ := List.append_of_mem (mem_newer member unread)
  have split : newest ++ entry :: between ++ c.log = newest ++ entry :: (between ++ c.log) := by simp
  rw [split] at trace
  obtain ⟨claim, takes, -⟩ := trace.putPosition_takes seeded puts
  obtain ⟨taken, -, -, -, -, -, -, number, -⟩ := takes.position
  -- the batch claimed its block after the place was given out
  obtain ⟨first, last, rfl⟩ := List.append_of_mem
    (mem_newer takes.member (by rw [takes.mine, unread]))
  have regrouped : RoomTrace d .free origin (first ++ claim :: (last ++ c.log)) entry.before := by
    simpa using trace.logged.earlier
  have grown := regrouped.logged.earlier.line_grows seeded run.trace
  have within := GivenPlace.le_line (run.trace.mem_positionsOf seeded placed) seeded run.trace
  have index : (0 : ℚ) ≤ taken.length := Nat.cast_nonneg _
  have strict : (position : ℚ) < write.position := by linarith
  exact_mod_cast strict

/-! ## A sample run -/

/-- What the visitor of a thread was told. -/
def admissionOf (c : Room) (thread : ℕ) : Option (RequestId × Admission) :=
  match c.result thread with
  | some (.generateToken requestId _ _ _ _, .admission (.ok admission)) => some (requestId, admission)
  | _ => none

theorem result_of_admissionOf {c : Room} {thread : ℕ} {requestId : RequestId} {admission : Admission}
    (told : admissionOf c thread = some (requestId, admission)) :
    ∃ secret viewerIp now draw, c.result thread =
      some (.generateToken requestId secret viewerIp now draw, .admission (.ok admission)) := by
  unfold admissionOf at told
  split at told
  · rename_i secret viewerIp now draw admission' returned
    obtain ⟨rfl, rfl⟩ := Prod.mk.inj (Option.some.inj told)
    exact ⟨secret, viewerIp, now, draw, returned⟩
  · cases told

namespace Sample

/-- Alice is in the cohort, a pass releases all there is, and she is admitted. -/
def aliceFirst : List (Action Job Choice) :=
  [.start (.joinBatch shard [⟨"m1", "alice"⟩])] ++ commits 0 5 ++ [.start (.openEvent seed .ascending)] ++
    commits 1 11 ++ [.start (.controllerPass 100 .ascending)] ++ commits 2 12 ++
    [.start (.generateToken alice aliceSecret none 110 (some shard))] ++ commits 3 5

/-- Bob joins after that, and asks to be admitted. -/
def bobAfter : List (Action Job Choice) :=
  [.start (.joinBatch shard [⟨"m2", "bob"⟩])] ++ commits 4 3 ++
    [.start (.generateToken bob bobSecret none 120 (some shard))] ++ commits 5 2

/-- A call that puts Bob at a position. -/
def putsBob (position : ℕ) (entry : RoomEntry) : Bool :=
  match entry.exchange.call with
  | .putPosition write => decide (write.requestId = bob ∧ write.position = position)
  | _ => false

end Sample

/-- One visitor is admitted, and the cursor is at 2. -/
theorem admitted_within_cursor_sample : ∃ c : Room, RoomRun Sample.deployment .free Sample.origin c ∧
    Sample.alice ∈ grantedIds c ∧ (grantedIds c).ncard ≤ 2 := by
  obtain ⟨c, run, good⟩ := System.exists_reaches_of_run
    (show ((room Sample.deployment).run .free (.initial Sample.origin) Sample.aliceFirst).any
      (fun c => decide (admissionOf c 3 = some (Sample.alice, .admitted 0 3710 "session") ∧
        c.state.servingCounter = 2)) by decide +kernel)
  obtain ⟨told, cursor⟩ := of_decide_eq_true good
  obtain ⟨secret, viewerIp, now, draw, returned⟩ := result_of_admissionOf told
  refine ⟨c, run, ⟨3, secret, viewerIp, now, draw, _, returned, trivial⟩, ?_⟩
  rw [← cursor]
  exact (admitted_within_cursor Sample.origin_seeded run).2

/-- Alice is admitted from place 0, and Bob is told to wait at place 2. -/
theorem nobody_is_overtaken_sample : ∃ c later : Room,
    RoomRun Sample.deployment .free Sample.origin c ∧
    (room Sample.deployment).Reaches .free c later ∧
    admissionOf c 3 = some (Sample.alice, .admitted 0 3710 "session") ∧
    admissionOf later 5 = some (Sample.bob, .refused (.stillQueued 2 2)) ∧ 0 < 2 ∧ 2 ≤ 2 := by
  obtain ⟨c, run, good⟩ := System.exists_reaches_of_run
    (show ((room Sample.deployment).run .free (.initial Sample.origin) Sample.aliceFirst).any
      (fun c => decide (admissionOf c 3 = some (Sample.alice, .admitted 0 3710 "session")) &&
        (history c.log 5).isEmpty &&
        ((room Sample.deployment).run .free c Sample.bobAfter).any fun later =>
          decide (admissionOf later 5 = some (Sample.bob, .refused (.stillQueued 2 2)))) by
      decide +kernel)
  simp only [Bool.and_eq_true, decide_eq_true_eq, List.isEmpty_iff] at good
  obtain ⟨⟨admitted, unread⟩, suffix⟩ := good
  obtain ⟨later, goesOn, waits⟩ := System.exists_reaches_of_run suffix
  have waits := of_decide_eq_true waits
  obtain ⟨_, _, _, _, first⟩ := result_of_admissionOf admitted
  obtain ⟨_, _, _, _, second⟩ := result_of_admissionOf waits
  exact ⟨c, later, run, goesOn, admitted, waits,
    nobody_is_overtaken Sample.origin_seeded run goesOn first unread second⟩

/-- Alice has place 0, and Bob is put at place 2. -/
theorem later_joins_stand_behind_sample : ∃ c later : Room,
    RoomRun Sample.deployment .free Sample.origin c ∧
    (room Sample.deployment).Reaches .free c later ∧
    0 ∈ positionsOf Sample.deployment c.state Sample.alice ∧
    (∃ entry ∈ later.log, Sample.putsBob 2 entry) ∧ 0 < 2 := by
  obtain ⟨c, run, good⟩ := System.exists_reaches_of_run
    (show ((room Sample.deployment).run .free (.initial Sample.origin) Sample.aliceFirst).any
      (fun c => decide ((c.state.positions Sample.alice).map PositionItem.queuePosition = some 0) &&
        (history c.log 4).isEmpty &&
        ((room Sample.deployment).run .free c Sample.bobAfter).any fun later =>
          later.log.any fun entry => decide (entry.thread = 4) && Sample.putsBob 2 entry) by
      decide +kernel)
  simp only [Bool.and_eq_true, decide_eq_true_eq, List.isEmpty_iff] at good
  obtain ⟨⟨stored, unread⟩, suffix⟩ := good
  obtain ⟨later, goesOn, good⟩ := System.exists_reaches_of_run suffix
  obtain ⟨entry, member, found⟩ := List.any_eq_true.mp good
  obtain ⟨mine, puts⟩ := Bool.and_eq_true_iff.mp found
  have mine := of_decide_eq_true mine
  have placed : 0 ∈ positionsOf Sample.deployment c.state Sample.alice := by
    obtain ⟨row, held, same⟩ := Option.map_eq_some_iff.mp stored
    exact .inl ⟨row, held, same⟩
  refine ⟨c, later, run, goesOn, placed, ⟨entry, member, puts⟩, ?_⟩
  unfold Sample.putsBob at puts
  split at puts
  · rename_i write call
    obtain ⟨-, at_two⟩ := of_decide_eq_true puts
    have behind := later_joins_stand_behind Sample.origin_seeded run goesOn placed member
      (by rw [mine, unread]) call
    rwa [at_two] at behind
  · cases puts

end WaitingRoom
