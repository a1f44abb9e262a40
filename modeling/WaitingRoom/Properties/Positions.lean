import WaitingRoom.Protocol.Rows
import Mathlib.Order.CompletePartialOrder

/-!
# No two visitors share a position

Five writers hand out or stamp places: the live blocks, the fix-up's blocks, the shard blocks
whose rows the open's permutation places, and the admissions. In every reachable state the
places of two ids are disjoint, the cohort's places are below its size, and every place a
batch puts is behind them (`positions_unique`).
-/

set_option autoImplicit false

namespace WaitingRoom

open Dynamo Concurrency

/-- The places of an id: the position on its position row, and the one its pre-queue row
resolves to. -/
def positionsOf (d : Deployment) (db : Db) (requestId : RequestId) : Set ℕ :=
  {position | (∃ row, db.positions requestId = some row ∧ row.queuePosition = position) ∨
    OwnPosition d db requestId position}

section Positions

variable {d : Deployment} {policy : RoomPolicy} {origin db : Db} {log : List RoomEntry}
  {requestId requestId' : RequestId} {position : ℕ}

/-- A place is a live position or a cohort position. -/
theorem RoomTrace.mem_positionsOf (seeded : Seeded origin)
    (trace : RoomTrace d policy origin log db) (member : position ∈ positionsOf d db requestId) :
    OwnPosition d db requestId position ∨ LivePosition log requestId position := by
  rcases member with ⟨row, found, rfl⟩ | own
  · exact trace.position_origin seeded found
  · exact .inl own

/-- Where a counted row's position comes from. -/
theorem RoomTrace.ownPosition_eq (seeded : Seeded origin)
    (trace : RoomTrace d policy origin log db) {counts : Shard → ℕ} {seed : Seed}
    (published : Published d db counts seed) (own : OwnPosition d db requestId position) :
    ∃ entry ∈ log, ∃ write, entry.exchange.call = .putPrequeue write ∧
      write.requestId = requestId ∧ (write.shard, write.localIndex) ∈ issued counts ∧
      position = cohortPosition d.hmac seed counts (write.shard, write.localIndex) := by
  obtain ⟨row, found, resolves⟩ := own
  obtain ⟨entry, member, write, call, mine, rfl⟩ := trace.prequeue_origin seeded found
  have counted := (published.resolve write.shard write.requestId write.localIndex
    (some write.digest)).symm.trans resolves
  refine ⟨entry, member, write, call, mine, ?_⟩
  split_ifs at counted with inside
  · exact ⟨inside, (ResolvedPosition.preQueue.inj (Except.ok.inj counted)).symm⟩
  · cases Except.ok.inj counted

theorem RoomTrace.ownPosition_lt (seeded : Seeded origin)
    (trace : RoomTrace d policy origin log db) {counts : Shard → ℕ} {seed : Seed}
    (published : Published d db counts seed) (own : OwnPosition d db requestId position) :
    position < ∑ shard, counts shard := by
  obtain ⟨_, -, write, -, -, inside, rfl⟩ := trace.ownPosition_eq seeded published own
  exact (cohortPosition_bijOn d.hmac seed published.bounded).mapsTo inside

/-- Two ids do not own one position. -/
theorem RoomTrace.ownPosition_unique (seeded : Seeded origin)
    (trace : RoomTrace d policy origin log db) (own : OwnPosition d db requestId position)
    (own' : OwnPosition d db requestId' position) : requestId = requestId' := by
  obtain ⟨counts, seed, published⟩ := (trace.opening seeded).published own.opened
  obtain ⟨entry, member, write, call, rfl, inside, same⟩ :=
    trace.ownPosition_eq seeded published own
  obtain ⟨entry', member', write', call', rfl, inside', same'⟩ :=
    trace.ownPosition_eq seeded published own'
  have pair := (cohortPosition_bijOn d.hmac seed published.bounded).injOn inside inside'
    (same.symm.trans same')
  obtain ⟨onShard, localIndex⟩ := Prod.mk.inj pair
  rw [trace.putPrequeue_unique member member' call call' onShard localIndex]

/-- A position that a batch put is nobody's own. -/
theorem RoomTrace.ownPosition_ne_live (seeded : Seeded origin)
    (trace : RoomTrace d policy origin log db) (own : OwnPosition d db requestId position)
    (live : LivePosition log requestId' position) : False := by
  obtain ⟨counts, seed, published⟩ := (trace.opening seeded).published own.opened
  obtain ⟨entry, member, write, call, -, rfl⟩ := live
  have behind := trace.putPosition_behind seeded member call published
  exact absurd (trace.ownPosition_lt seeded published own) behind.not_gt

/-- The published size is what a reader parses. -/
theorem Published.participantCount {counts : Shard → ℕ} {seed : Seed}
    (published : Published d db counts seed) :
    (d.view db).participantCount = some (∑ shard, counts shard) := by
  have outputs := published.outputs
  simp only [Counters.openOutputs, Option.bind_eq_bind, Option.bind_eq_some_iff,
    Option.pure_def, Option.some.injEq] at outputs
  obtain ⟨_, -, _, -, count, read, same⟩ := outputs
  rw [read]
  exact congrArg (fun outputs : OpenOutputs => some outputs.offsets.participantCount) same

end Positions

/-- **No two visitors share a position.** In every reachable state the places of two ids are
disjoint, every position a row resolves to is below the cohort's size, and every position a
batch puts is above it. -/
theorem positions_unique {d : Deployment} {origin : Db} (seeded : Seeded origin) {c : Room}
    (run : RoomRun d .free origin c) :
    (∀ requestId requestId', requestId ≠ requestId' →
      Disjoint (positionsOf d c.state requestId) (positionsOf d c.state requestId')) ∧
    (∀ row position,
      (d.view c.state).resolvePrequeue d.hmac row = .ok (.preQueue position) →
        ∃ size, (d.view c.state).participantCount = some size ∧ position < size) ∧
    ∀ entry ∈ c.log, ∀ write, entry.exchange.call = .putPosition write →
      ∃ size, (d.view c.state).participantCount = some size ∧ size < write.position := by
  have trace := run.trace
  refine ⟨fun requestId requestId' differ => ?_, fun row position resolves => ?_,
    fun entry member write call => ?_⟩
  · rw [Set.disjoint_left]
    intro position member member'
    rcases trace.mem_positionsOf seeded member with own | live
    · rcases trace.mem_positionsOf seeded member' with own' | live'
      · exact differ (trace.ownPosition_unique seeded own own')
      · exact trace.ownPosition_ne_live seeded own live'
    · rcases trace.mem_positionsOf seeded member' with own' | live'
      · exact trace.ownPosition_ne_live seeded own' live
      · obtain ⟨entry, inLog, write, call, rfl, same⟩ := live
        obtain ⟨entry', inLog', write', call', rfl, same'⟩ := live'
        rw [trace.putPosition_unique seeded inLog inLog' call call' (same.trans same'.symm)] at differ
        exact differ rfl
  · obtain ⟨counts, seed, published⟩ :=
      (trace.opening seeded).published (opened_of_resolves resolves)
    refine ⟨_, published.participantCount, ?_⟩
    by_cases onShard : row.s < shards
    · have counted := (published.resolve ⟨row.s, onShard⟩ row.r row.l row.h).symm.trans resolves
      split_ifs at counted with inside
      · rw [← ResolvedPosition.preQueue.inj (Except.ok.inj counted)]
        exact (cohortPosition_bijOn d.hmac seed published.bounded).mapsTo inside
      · cases Except.ok.inj counted
    · rw [resolvePrequeue_of_le d.hmac published.outputs (Nat.not_lt.mp onShard)] at resolves
      cases resolves
  · obtain ⟨counts, seed, published⟩ :=
      (trace.opening seeded).published (trace.opened_of_putPosition seeded member call)
    exact ⟨_, published.participantCount, trace.putPosition_behind seeded member call published⟩

/-- One visitor of the cohort and one behind it. -/
theorem positions_unique_sample : ∃ c : Room, RoomRun Sample.deployment .free Sample.origin c ∧
    c.state.Opened ∧ Disjoint (positionsOf Sample.deployment c.state Sample.alice)
      (positionsOf Sample.deployment c.state Sample.bob) := by
  obtain ⟨c, run, opened⟩ := System.exists_reaches_of_run
    (show ((room Sample.deployment).run .free (.initial Sample.origin)
      (.start (.joinBatch Sample.shard [⟨"m1", "alice"⟩]) ::
        .start (.openEvent Sample.seed .ascending) ::
          .start (.joinBatch Sample.shard [⟨"m2", "bob"⟩]) ::
            (Sample.commits 0 5 ++ Sample.commits 1 11 ++ Sample.commits 2 3))).any
        (fun c => decide c.state.Opened) by decide +kernel)
  exact ⟨c, run, of_decide_eq_true opened,
    (positions_unique Sample.origin_seeded run).1 _ _ (by decide)⟩

end WaitingRoom
