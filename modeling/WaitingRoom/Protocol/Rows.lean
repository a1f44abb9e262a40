import WaitingRoom.Protocol.Blocks

/-!
# Where rows come from

Every pre-queue row is one that a batch put (`RoomTrace.prequeue_origin`). Every position row
holds either a position that a batch put for its id, or the position that the id's own
pre-queue row resolves to (`RoomTrace.position_origin`): an admission that creates or updates
a row writes no other.
-/

set_option autoImplicit false

namespace WaitingRoom

open Dynamo Concurrency

/-- The position an id's pre-queue row resolves to. -/
def OwnPosition (d : Deployment) (db : Db) (requestId : RequestId) (position : ℕ) : Prop :=
  ∃ row, db.prequeue requestId = some row ∧
    (d.view db).resolvePrequeue d.hmac row = .ok (.preQueue position)

/-- A position that a batch put for an id. -/
def LivePosition (log : List RoomEntry) (requestId : RequestId) (position : ℕ) : Prop :=
  ∃ entry ∈ log, ∃ write, entry.exchange.call = .putPosition write ∧
    write.requestId = requestId ∧ write.position = position

section Rows

variable {d : Deployment} {policy : RoomPolicy} {origin db db' : Db}
  {log newer older : List RoomEntry} {entry : RoomEntry} {requestId : RequestId} {position : ℕ}

/-- A row that resolves is a row of an opened event. -/
theorem opened_of_resolves {row : PreQueueItem} {resolved : ResolvedPosition}
    (resolves : (d.view db).resolvePrequeue d.hmac row = .ok resolved) : db.Opened := by
  refine opened_of_openOutputs (d := d) fun unopened => ?_
  rw [Counters.resolvePrequeue, unopened] at resolves
  cases resolves

theorem OwnPosition.opened (own : OwnPosition d db requestId position) : db.Opened := by
  obtain ⟨row, -, resolves⟩ := own
  exact opened_of_resolves resolves

/-- An id keeps the position of its pre-queue row. -/
theorem OwnPosition.grows (own : OwnPosition d db requestId position) (grows : db.Grows db') :
    OwnPosition d db' requestId position := by
  obtain ⟨row, found, resolves⟩ := own
  refine ⟨row, grows.prequeue requestId row found, ?_⟩
  rw [resolvePrequeue_of_grows grows (opened_of_resolves resolves), resolves]

theorem LivePosition.mono (live : LivePosition older requestId position) :
    LivePosition (newer ++ older) requestId position := by
  obtain ⟨entry, member, put⟩ := live
  exact ⟨entry, List.mem_append_right _ member, put⟩

/-- A batch puts a position of an event that is open. -/
theorem RoomTrace.opened_before_put (seeded : Seeded origin)
    (trace : RoomTrace d policy origin (newer ++ entry :: older) db) {write : PositionWrite}
    (call : entry.exchange.call = .putPosition write) : entry.before.Opened := by
  obtain ⟨claim, takes, opened⟩ := trace.putPosition_takes seeded call
  exact (trace.logged.earlier.before_grows takes.member).isOpened opened

/-- The event is open once a batch has put a position. -/
theorem RoomTrace.opened_of_putPosition (seeded : Seeded origin)
    (trace : RoomTrace d policy origin log db) {write : PositionWrite} (member : entry ∈ log)
    (call : entry.exchange.call = .putPosition write) : db.Opened := by
  obtain ⟨newer, older, rfl⟩ := List.append_of_mem member
  exact (trace.before_grows member).isOpened (trace.opened_before_put seeded call)

/-- **Every pre-queue row was put by a batch.** -/
theorem RoomTrace.prequeue_origin (seeded : Seeded origin)
    (trace : RoomTrace d policy origin log db) {row : PreQueueItem}
    (found : db.prequeue requestId = some row) :
    ∃ entry ∈ log, ∃ write, entry.exchange.call = .putPrequeue write ∧
      write.requestId = requestId ∧ row = write.row := by
  revert found
  refine trace.rule (motive := fun log db => db.prequeue requestId = some row →
    ∃ entry ∈ log, ∃ write, entry.exchange.call = .putPrequeue write ∧
      write.requestId = requestId ∧ row = write.row) ?_ ?_
  · intro found
    rw [seeded.prequeue requestId] at found
    cases found
  · intro entry older logged before found
    rcases logged.effect.prequeue_cases requestId with same | ⟨write, call, mine, -, written⟩
    · obtain ⟨earlier, member, put⟩ := before [] older _ rfl logged.earlier (same ▸ found)
      exact ⟨earlier, List.mem_cons_of_mem _ member, put⟩
    · exact ⟨entry, List.mem_cons_self, write, call, mine,
        Option.some.inj (found.symm.trans written)⟩

/-- What an admission claims for: the position of a row it read, or the one its pre-queue row
resolved to. -/
theorem Logged.claimed_position (logged : Logged d policy origin older entry) {digest : SecretDigest}
    (call : entry.exchange.call = .claimAdmission requestId position digest) :
    (∃ old row, Held d policy origin older old ∧ old.positions requestId = some row ∧
      row.queuePosition = position ∧ row.h = some digest) ∨
    (∃ old, Held d policy origin older old ∧ old.positions requestId = none) ∧
      OwnPosition d entry.before requestId position ∧
      ∃ row, entry.before.prequeue requestId = some row ∧ row.h = some digest := by
  have lawful := logged.lawful
  rw [call] at lawful
  obtain ⟨secret, viewerIp, now, draw, item, row, prequeue, -, reads, granted⟩ := lawful.granted
  obtain ⟨stored, -, resolved, -⟩ := decide_eq_ok granted
  cases row with
  | some row =>
      obtain ⟨old, held, found⟩ := logged.earlier.read_position reads.position
      rw [Option.map_some, resolvePosition_some] at resolved
      exact .inl ⟨old, row, held, found, Except.ok.inj resolved, Except.ok.inj stored⟩
  | none =>
      obtain ⟨positionsOld, positionsHeld, positionsFound⟩ :=
        logged.earlier.read_position reads.position
      obtain ⟨row, rfl, resolves⟩ := resolvePosition_none resolved
      obtain ⟨rowOld, rowHeld, rowFound⟩ := logged.earlier.read_prequeue (reads.prequeue_read rfl)
      obtain ⟨old, held, found⟩ := logged.earlier.read_counters reads.counters
      have present := (rowHeld.grows logged.earlier).prequeue requestId row rowFound
      refine .inr ⟨⟨positionsOld, positionsHeld, positionsFound⟩, ⟨row, present, ?_⟩, row,
        present, Except.ok.inj stored⟩
      -- the counters that were read resolve the row as they do now
      have resolvedThen : (d.view old).resolvePrequeue d.hmac row = .ok (.preQueue position) := by
        rwa [Deployment.view, found, Option.getD_some]
      rw [resolvePrequeue_of_grows (held.grows logged.earlier) (opened_of_resolves resolvedThen),
        resolvedThen]

/-- **Every position row holds a position put for its id, or the one of its pre-queue row.** -/
theorem RoomTrace.position_origin (seeded : Seeded origin)
    (trace : RoomTrace d policy origin log db) {row : PositionItem}
    (found : db.positions requestId = some row) :
    OwnPosition d db requestId row.queuePosition ∨
      LivePosition log requestId row.queuePosition := by
  revert row
  refine trace.rule (motive := fun log db => ∀ {row : PositionItem},
    db.positions requestId = some row → OwnPosition d db requestId row.queuePosition ∨
      LivePosition log requestId row.queuePosition) ?_ ?_
  · intro row found
    rw [seeded.positions requestId] at found
    cases found
  · intro entry older logged before row found
    -- what held of an earlier row holds of this one
    have still : ∀ {old oldRow}, Held d policy origin older old → old.positions requestId = some oldRow →
        OwnPosition d entry.after requestId oldRow.queuePosition ∨
          LivePosition (entry :: older) requestId oldRow.queuePosition := by
      rintro old oldRow ⟨newer, oldest, rfl, earlier⟩ oldFound
      refine (before newer oldest old rfl earlier oldFound).imp (fun own => ?_) fun live => ?_
      · exact own.grows ((logged.earlier.grows earlier).trans logged.grows)
      · have later : LivePosition ((entry :: newer) ++ oldest) requestId oldRow.queuePosition := live.mono
        exact later
    rcases logged.effect.positions_cases requestId with same | ⟨write, call, mine, -, written⟩ |
      ⟨position, digest, row', call, admits, written⟩
    · exact still ⟨[], older, rfl, logged.earlier⟩ (same ▸ found)
    · obtain rfl := Option.some.inj (found.symm.trans written)
      exact .inr ⟨entry, List.mem_cons_self, write, call, mine, rfl⟩
    · obtain rfl := Option.some.inj (found.symm.trans written)
      obtain ⟨placed, -, -⟩ := admitRow_eq_some admits
      rw [placed]
      rcases logged.claimed_position call with ⟨old, oldRow, held, oldFound, rfl, -⟩ | ⟨-, own, -⟩
      · exact still held oldFound
      · exact .inl (own.grows logged.grows)

/-- The event is open once a position row exists. -/
theorem RoomTrace.opened_of_row (seeded : Seeded origin) (trace : RoomTrace d policy origin log db)
    {row : PositionItem} (found : db.positions requestId = some row) : db.Opened := by
  rcases trace.position_origin seeded found with own | ⟨entry, member, write, call, -⟩
  · exact own.opened
  · exact trace.opened_of_putPosition seeded member call

/-- A stored row of an opened event is counted or a live join. -/
theorem RoomTrace.resolves (seeded : Seeded origin) (trace : RoomTrace d policy origin log db)
    (opened : db.Opened) {row : PreQueueItem} (found : db.prequeue requestId = some row) :
    (∃ position, (d.view db).resolvePrequeue d.hmac row = .ok (.preQueue position)) ∨
      (d.view db).resolvePrequeue d.hmac row = .ok .liveJoin := by
  obtain ⟨counts, seed, published⟩ := (trace.opening seeded).published opened
  obtain ⟨_, -, write, -, -, rfl⟩ := trace.prequeue_origin seeded found
  rw [PreQueueWrite.row, published.resolve]
  split_ifs
  · exact .inl ⟨_, rfl⟩
  · exact .inr rfl

/-- An id owns one position. -/
theorem OwnPosition.unique {position' : ℕ} (own : OwnPosition d db requestId position)
    (own' : OwnPosition d db requestId position') : position = position' := by
  obtain ⟨row, found, resolves⟩ := own
  obtain ⟨row', found', resolves'⟩ := own'
  obtain rfl := Option.some.inj (found.symm.trans found')
  exact ResolvedPosition.preQueue.inj (Except.ok.inj (resolves.symm.trans resolves'))

end Rows

end WaitingRoom
