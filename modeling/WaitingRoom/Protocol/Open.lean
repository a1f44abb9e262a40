import WaitingRoom.Protocol.Legal

/-!
# Opens conform

An open reads every shard once and writes the fold of what it read. Performed for an operator
it does the same after one load of the control state.
-/

set_option autoImplicit false

namespace WaitingRoom

open Dynamo Concurrency

section Open

variable {d : Deployment} {job : Job} {history : History}

/-- No shard has been read yet. -/
def ReadsNoShard (history : History) : Prop :=
  ∀ exchange ∈ history, ∀ shard, exchange.call ≠ .getShard shard

/-- Where an open is after it read the shards of `past`. -/
structure ReadSoFar (past : List Shard) (history : History) (items : List Item) : Prop where
  reads : ∀ exchange ∈ history, ∀ shard, exchange.call = .getShard shard → shard ∈ past
  complete : ∀ shard ∈ past, ∃ item, answered (.getShard shard) (.ok item) ∈ history
  items : ShardReads history items

/-- The next shard is read. -/
theorem ReadSoFar.next {past : List Shard} {items : List Item} (so_far : ReadSoFar past history items)
    (shard : Shard) (item : Option Item) :
    ReadSoFar (past ++ [shard]) (answered (.getShard shard) (.ok item) :: history)
      (items ++ item.toList) where
  reads exchange member other same := by
    rcases List.mem_cons.mp member with rfl | before
    · cases same
      exact List.mem_append_right _ (List.mem_singleton.mpr rfl)
    · exact List.mem_append_left _ (so_far.reads exchange before other same)
  complete other member := by
    rcases List.mem_append.mp member with before | here
    · obtain ⟨found, inside⟩ := so_far.complete other before
      exact ⟨found, List.mem_cons_of_mem _ inside⟩
    · obtain rfl := List.mem_singleton.mp here
      exact ⟨item, List.mem_cons_self⟩
  items :=
    { from_read := fun found member => by
        rcases List.mem_append.mp member with before | here
        · obtain ⟨other, inside⟩ := so_far.items.from_read found before
          exact ⟨other, List.mem_cons_of_mem _ inside⟩
        · obtain rfl := Option.mem_toList.mp here
          exact ⟨shard, List.mem_cons_self⟩
      of_read := fun other found member => by
        rcases List.mem_cons.mp member with same | before
        · cases same
          exact List.mem_append_right _ (Option.mem_toList.mpr rfl)
        · exact List.mem_append_left _ (so_far.items.of_read other found before) }

theorem readShards_obeys (opens : job.Opens) (order : ShardOrder) (fresh : ReadsNoShard history) :
    Obeys (legal d job) (fun later => onResult (ReadSoFar order.shards later) fun _ => True) history
      (readShards order) := by
  have start : ReadSoFar [] history [] :=
    ⟨fun exchange member shard same => absurd same (fresh exchange member shard), nofun,
      by simp, fun shard item member => absurd rfl (fresh _ member shard)⟩
  refine Obeys.tryEach (fun past later items => ReadSoFar past later items) start ?_
  intro past shard rest later items whole so_far
  -- the order names a shard once, so this one has not been read
  have unread : shard ∉ past := by
    have distinct := order.nodup
    rw [whole] at distinct
    intro again
    exact (List.nodup_append.mp distinct).2.2 shard again shard List.mem_cons_self rfl
  refine obeys_request ⟨opens, fun exchange member same => unread ?_⟩ (fun error => trivial)
    fun item => so_far.next shard item
  exact so_far.reads exchange member shard same

theorem readShardCounts_obeys (opens : job.Opens) (order : ShardOrder)
    (fresh : ReadsNoShard history) :
    Obeys (legal d job) (fun later => onResult
        (fun counts => ∃ items, ReadSoFar order.shards later items ∧
          countsFromShardItems items (fun _ => 0) = .ok counts) fun _ => True) history
      (readShardCounts order) := by
  refine (readShards_obeys opens order fresh).bind fun later result read => ?_
  cases result with
  | error error => exact trivial
  | ok items =>
      change onResult _ _ (countsFromShardItems items fun _ => 0)
      cases folded : countsFromShardItems items fun _ => 0 with
      | error error => exact trivial
      | ok counts => exact ⟨items, read, folded⟩

/-- **An open conforms wherever it is started.** -/
theorem openEvent_obeys (opens : job.Opens) (seed : Seed) (order : ShardOrder)
    (fresh : ReadsNoShard history) :
    Obeys (legal d job) (fun _ _ => True) history (openEvent seed order) := by
  refine (readShardCounts_obeys opens order fresh).bind fun later result read => ?_
  cases result with
  | error error => exact trivial
  | ok counts =>
      obtain ⟨items, so_far, folded⟩ := read
      simp only
      cases computed : openValues counts seed with
      | error error => exact trivial
      | ok values =>
          refine obeys_request_bind ⟨opens, fun shard => so_far.complete shard (order.mem shard),
            items, counts, seed, so_far.items, folded, computed⟩ (fun error => trivial) ?_
          intro attributes
          cases attributes with
          | some item => exact trivial
          | none =>
              refine obeys_request_bind trivial (fun error => trivial) fun item => ?_
              cases item.any fun attributes => (attributes "shuffle_seed").isSome with
              | true => exact trivial
              | false => exact trivial

end Open

end WaitingRoom
