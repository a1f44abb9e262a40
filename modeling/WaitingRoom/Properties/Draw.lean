import WaitingRoom.Protocol.Blocks

/-!
# The draw cannot be joined after the fact

The open that wins publishes the counts that it read shard by shard. Whoever claims a local
index on a shard after that read resolves to a live join once the event is open, and the pairs
that have a place in the cohort never change (`draw_is_closed`).
-/

set_option autoImplicit false

namespace WaitingRoom

open Dynamo Concurrency

/-- The call that opened the event. -/
structure Wins (winner : RoomEntry) : Prop where
  unopened : ¬ winner.before.Opened
  opened : winner.after.Opened

/-- A read of a shard by the job that opened the event. -/
structure ReadByWinner (winner read : RoomEntry) (shard : Shard) : Prop where
  mine : read.thread = winner.thread
  call : ∃ found, read.exchange = answered (.getShard shard) (.ok found)

section Draw

variable {d : Deployment} {policy : RoomPolicy} {origin db : Db} {log : List RoomEntry}
  {winner read claim : RoomEntry} {shard : Shard}

/-- The counts that were published are those that the winner read. -/
theorem RoomTrace.published_count (seeded : Seeded origin)
    (trace : RoomTrace d policy origin log db) (member : winner ∈ log) (wins : Wins winner) :
    ∃ counts seed, Published d db counts seed ∧ ∀ read ∈ log, ∀ shard,
      ReadByWinner winner read shard → read.before.count shard = counts shard := by
  obtain ⟨newer, older, rfl, logged⟩ := trace.logged_of_mem member
  obtain ⟨counts, seed, won⟩ := logged.winner seeded wins.unopened wins.opened
  refine ⟨counts, seed, won.published.grows (trace.after_grows member), ?_⟩
  rintro read inLog shard ⟨mine, found, same⟩
  obtain ⟨read', reads⟩ := won.reads shard
  obtain ⟨found', same'⟩ := reads.call
  have inLog' : read' ∈ newer ++ winner :: older :=
    List.mem_append_right _ (List.mem_cons_of_mem _ reads.member)
  rw [trace.read_unique inLog inLog' (by rw [same]) (by rw [same']) (mine.trans reads.mine.symm)]
  exact reads.counted

/-- A claim after the winner's read hands out no index of the cohort. -/
theorem RoomTrace.claimed_after_read (seeded : Seeded origin) {newer older : List RoomEntry}
    (trace : RoomTrace d policy origin (newer ++ claim :: older) db)
    {count stop start : ℕ} {item : Item} (claimed : claim.exchange = shardClaim shard count item)
    (total : num item shardCountAttr = some stop) (first : firstLocalIndex shard stop count = .ok start)
    (member : winner ∈ newer ++ claim :: older) (wins : Wins winner) (before : read ∈ older)
    (reads : ReadByWinner winner read shard) :
    ∃ counts seed, Published d db counts seed ∧ counts shard ≤ start := by
  obtain ⟨counts, seed, published, counted⟩ := trace.published_count seeded member wins
  refine ⟨counts, seed, published, ?_⟩
  have atRead := counted read (List.mem_append_right _ (List.mem_cons_of_mem _ before)) shard reads
  obtain ⟨added, -⟩ := trace.logged.shardBlock claimed total
  have grew : read.before.count shard ≤ claim.before.count shard :=
    (trace.logged.earlier.before_grows before).shards shard
  have startsAt := firstLocalIndex_eq_ok.mp first
  have le : (counts shard : ℚ) + count ≤ (start + count : ℕ) := by
    rw [startsAt, ← added, ← atRead]
    linarith
  have whole : counts shard + count ≤ start + count := by exact_mod_cast le
  omega

end Draw

/-- **The draw cannot be joined after the fact.** Every local index a claim returns after the
winning open read its shard resolves to a live join in the state reached, and once the event
is open, no row ever resolves differently again; the winner read every shard. -/
theorem draw_is_closed {d : Deployment} {origin : Db} (seeded : Seeded origin) {c : Room}
    (run : RoomRun d .free origin c) :
    (∀ newer claim older, c.log = newer ++ claim :: older →
      ∀ shard count item stop start, claim.exchange = shardClaim shard count item →
        num item shardCountAttr = some stop → firstLocalIndex shard stop count = .ok start →
        ∀ winner ∈ c.log, Wins winner → ∀ read ∈ older, ReadByWinner winner read shard →
          ∀ index < count, ∀ requestId digest,
            (d.view c.state).resolvePrequeue d.hmac
              ⟨requestId, shard, saturatingAdd start index, digest⟩ = .ok .liveJoin) ∧
    (c.state.Opened →
      (∃ winner ∈ c.log, Wins winner ∧ ∀ shard, ∃ read ∈ c.log, ReadByWinner winner read shard) ∧
      ∀ later, (room d).Reaches .free c later → ∀ row,
        (d.view later.state).resolvePrequeue d.hmac row =
          (d.view c.state).resolvePrequeue d.hmac row) := by
  have trace := run.trace
  refine ⟨?_, fun opened => ⟨?_, fun later goesOn row => ?_⟩⟩
  · intro newer claim older whole shard count item stop start claimed total first winner member wins
      read before reads index room requestId digest
    rw [whole] at trace member
    obtain ⟨counts, seed, published, behind⟩ :=
      trace.claimed_after_read seeded claimed total first member wins before reads
    have inside : start < u64Bound := by
      have startsAt := firstLocalIndex_eq_ok.mp first
      have bounded := num_lt total
      omega
    rw [published.resolve, if_neg]
    exact (behind.trans (le_saturatingAdd index inside)).not_gt
  · obtain ⟨newer, winner, older, counts, seed, whole, won, -⟩ := trace.winner seeded opened
    refine ⟨winner, by rw [whole]; simp, ⟨won.unopened, won.published.opened⟩, fun shard => ?_⟩
    obtain ⟨read, reads⟩ := won.reads shard
    refine ⟨read, ?_, reads.mine, reads.call⟩
    rw [whole]
    exact List.mem_append_right _ (List.mem_cons_of_mem _ reads.member)
  · exact resolvePrequeue_of_grows (run.grows goesOn) opened row

/-- A join that claims its index between the open's read of its shard and the open's write. -/
theorem draw_is_closed_sample : ∃ c : Room, RoomRun Sample.deployment .free Sample.origin c ∧
    c.state.Opened ∧ c.state.count Sample.shard = 1 ∧
    ∀ later, (room Sample.deployment).Reaches .free c later → ∀ row,
      (Sample.deployment.view later.state).resolvePrequeue Sample.deployment.hmac row =
        (Sample.deployment.view c.state).resolvePrequeue Sample.deployment.hmac row := by
  obtain ⟨c, run, good⟩ := System.exists_reaches_of_run
    (show ((room Sample.deployment).run .free (.initial Sample.origin)
      (.start (.joinBatch Sample.shard [⟨"m1", "alice"⟩]) :: .start (.openEvent Sample.seed .ascending) ::
        (Sample.commits 1 1 ++ Sample.commits 0 3 ++ Sample.commits 1 10))).any
        (fun c => decide (c.state.Opened ∧ c.state.count Sample.shard = 1)) by decide +kernel)
  obtain ⟨opened, counted⟩ := of_decide_eq_true good
  exact ⟨c, run, opened, counted, ((draw_is_closed Sample.origin_seeded run).2 opened).2⟩

end WaitingRoom
