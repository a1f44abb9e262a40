import WaitingRoom.Protocol.Legal

/-!
# Join batches conform

A batch makes its calls in the order of the protocol, and its report says what its answers
show when it returns: every accepted id has a row or a message of it is returned to the
queue, only accepted messages are, a message whose pre-queue row was written never is, and
every row that was written was looked at again after it was.
-/

set_option autoImplicit false

namespace WaitingRoom

open Dynamo Concurrency

/-! ## What a batch's answers show -/

/-- The answers show a row of the id. -/
def ShowsRow (history : History) (requestId : RequestId) : Prop :=
  (∃ write outcome, answered (.putPosition write) (.ok outcome) ∈ history ∧
    write.requestId = requestId) ∨
  (∃ write outcome, answered (.putPrequeue write) (.ok outcome) ∈ history ∧
    write.requestId = requestId) ∨
  ∃ requestIds found, answered (.batchGetPrequeue requestIds) (.ok found) ∈ history ∧
    requestId ∈ found

theorem ShowsRow.mono {history later : History} {requestId : RequestId}
    (shows_ : ShowsRow history requestId) (extends_ : history ⊆ later) :
    ShowsRow later requestId := by
  rcases shows_ with ⟨write, outcome, member, same⟩ | ⟨write, outcome, member, same⟩ |
    ⟨requestIds, found, member, inside⟩
  · exact .inl ⟨write, outcome, extends_ member, same⟩
  · exact .inr (.inl ⟨write, outcome, extends_ member, same⟩)
  · exact .inr (.inr ⟨requestIds, found, extends_ member, inside⟩)

/-- The batch observed that it wrote this pre-queue row. -/
def WrotePrequeue (history : History) (write : PreQueueWrite) : Prop :=
  answered (.putPrequeue write) (.ok .written) ∈ history

/-- The batch put a position row for the id, whatever came of it. -/
def PutFor (history : History) (requestId : RequestId) : Prop :=
  ∃ put reply, answered (.putPosition put) reply ∈ history ∧ put.requestId = requestId

/-- The answer to a block claim hands out no block. -/
def BlockFailed (answer : Except StoreError (Option Item)) : Prop :=
  ∀ item stop, answer = .ok (some item) → num item "queue_counter" ≠ some stop

/-- After a row was written the batch looked at the counters again, and if it saw the row
uncounted, its block claim failed or it put a position row for the id. -/
def LookedAgain (d : Deployment) (history : History) (write : PreQueueWrite) : Prop :=
  ∃ newer answer older,
    history = newer ++ answered (.getCounters true) answer :: older ∧ WrotePrequeue older write ∧
    ∀ item outputs, answer = .ok (some item) → (d.parse item).openOutputs = some outputs →
      outputs.offsets.assign write.shard write.localIndex = .liveJoin →
      (∃ n claim, answered (.updateCounters (.claimBlock n)) claim ∈ newer ∧ BlockFailed claim) ∨
      PutFor newer write.requestId

/-- The counters read of a batch that may neither claim nor register. -/
def Refuses (d : Deployment) : Except StoreError (Option Item) → Prop
  | .ok (some item) => (d.parse item).openOutputs = none ∧ (d.parse item).phase ≠ .preQueue
  | .ok none => True
  | .error _ => True

/-- What a batch's answers show when it returns. -/
structure BatchReport (d : Deployment) (valid : List (String × JoinMessage)) (history : History)
    (outcome : BatchOutcome) : Prop where
  covered : ∀ record ∈ valid, ShowsRow history record.2.requestId ∨
    ∃ other ∈ valid, other.2.requestId = record.2.requestId ∧ other.1 ∈ outcome.failures
  sound : ∀ messageId ∈ outcome.failures, ∃ msg, (messageId, msg) ∈ valid
  kept : (valid.map Prod.fst).Nodup → ∀ write, WrotePrequeue history write →
    ∀ record ∈ valid, record.2.requestId = write.requestId → record.1 ∉ outcome.failures
  refused : valid ≠ [] → ∃ answer newer,
    history = newer ++ [answered (.getCounters true) answer] ∧
      (Refuses d answer → newer = [] ∧ ∀ record ∈ valid, record.1 ∈ outcome.failures)
  looked : ∀ write, WrotePrequeue history write → LookedAgain d history write

/-- A batch that fails every accepted record and registered nobody. -/
theorem BatchReport.failAll {d : Deployment} {valid : List (String × JoinMessage)}
    {newer : History} {answer : Except StoreError (Option Item)}
    (unwritten : ∀ write, ¬ WrotePrequeue (newer ++ [answered (.getCounters true) answer]) write)
    (idle : Refuses d answer → newer = []) :
    BatchReport d valid (newer ++ [answered (.getCounters true) answer])
      ⟨valid.map Prod.fst⟩ where
  covered record member := .inr ⟨record, member, rfl, List.mem_map_of_mem member⟩
  sound messageId member := by
    obtain ⟨record, inside, rfl⟩ := List.mem_map.mp member
    exact ⟨record.2, inside⟩
  kept _ write wrote := absurd wrote (unwritten write)
  refused _ := ⟨answer, newer, rfl, fun refuses =>
    ⟨idle refuses, fun record member => List.mem_map_of_mem member⟩⟩
  looked write wrote := absurd wrote (unwritten write)

/-! ## Accounting for the records of a loop -/

/-- Every record of `past` has a row or its message is in `failures`, and every failed message
carries a record whose row was not written. -/
structure Accounted (past : List (String × JoinMessage)) (history : History)
    (written : List PreQueueWrite) (failures : List String) : Prop where
  covered : ∀ record ∈ past, ShowsRow history record.2.requestId ∨ record.1 ∈ failures
  sound : ∀ messageId ∈ failures, ∃ msg, (messageId, msg) ∈ past ∧
    ∀ write ∈ written, write.requestId ≠ msg.requestId
  owned : ∀ write ∈ written, ∃ record ∈ past, record.2.requestId = write.requestId

namespace Accounted

variable {past : List (String × JoinMessage)} {history : History} {written : List PreQueueWrite}
  {failures : List String} {messageId : String} {msg : JoinMessage} {exchange : Exchange Tables}

theorem nil : Accounted [] history [] [] := ⟨nofun, nofun, nofun⟩

/-- A write that failed fails its message. -/
theorem fail (accounted : Accounted past history written failures)
    (fresh : ∀ write ∈ written, write.requestId ≠ msg.requestId) :
    Accounted (past ++ [(messageId, msg)]) (exchange :: history) written
      (failures ++ [messageId]) where
  covered record member := by
    rcases List.mem_append.mp member with before | here
    · rcases accounted.covered record before with shown | failed
      · exact .inl (shown.mono (List.subset_cons_self _ _))
      · exact .inr (List.mem_append_left _ failed)
    · obtain rfl := List.mem_singleton.mp here
      exact .inr (List.mem_append_right _ (List.mem_singleton.mpr rfl))
  sound other member := by
    rcases List.mem_append.mp member with before | here
    · obtain ⟨msg', inside, differ⟩ := accounted.sound other before
      exact ⟨msg', List.mem_append_left _ inside, differ⟩
    · obtain rfl := List.mem_singleton.mp here
      exact ⟨msg, List.mem_append_right _ (List.mem_singleton.mpr rfl), fresh⟩
  owned write member := by
    obtain ⟨record, inside, same⟩ := accounted.owned write member
    exact ⟨record, List.mem_append_left _ inside, same⟩

/-- A write that was answered shows a row. -/
theorem shown (accounted : Accounted past history written failures)
    (shows_ : ShowsRow (exchange :: history) msg.requestId) :
    Accounted (past ++ [(messageId, msg)]) (exchange :: history) written failures where
  covered record member := by
    rcases List.mem_append.mp member with before | here
    · rcases accounted.covered record before with shown | failed
      · exact .inl (shown.mono (List.subset_cons_self _ _))
      · exact .inr failed
    · obtain rfl := List.mem_singleton.mp here
      exact .inl shows_
  sound other member := by
    obtain ⟨msg', inside, differ⟩ := accounted.sound other member
    exact ⟨msg', List.mem_append_left _ inside, differ⟩
  owned write member := by
    obtain ⟨record, inside, same⟩ := accounted.owned write member
    exact ⟨record, List.mem_append_left _ inside, same⟩

/-- A row that was written is owned by its record, and by no failed one. -/
theorem wrote {write : PreQueueWrite} (accounted : Accounted past history written failures)
    (shows_ : ShowsRow (exchange :: history) msg.requestId) (same : write.requestId = msg.requestId)
    (fresh : ∀ record ∈ past, record.2.requestId ≠ msg.requestId) :
    Accounted (past ++ [(messageId, msg)]) (exchange :: history) (written ++ [write]) failures where
  covered := (accounted.shown shows_).covered
  sound other member := by
    obtain ⟨msg', inside, differ⟩ := accounted.sound other member
    refine ⟨msg', List.mem_append_left _ inside, fun w among => ?_⟩
    rcases List.mem_append.mp among with before | here
    · exact differ w before
    · obtain rfl := List.mem_singleton.mp here
      rw [same]
      exact (fresh _ inside).symm
  owned w among := by
    rcases List.mem_append.mp among with before | here
    · obtain ⟨record, inside, owns⟩ := accounted.owned w before
      exact ⟨record, List.mem_append_left _ inside, owns⟩
    · obtain rfl := List.mem_singleton.mp here
      exact ⟨(messageId, msg), List.mem_append_right _ (List.mem_singleton.mpr rfl), same.symm⟩

end Accounted

/-! ## The live path -/

section Live

variable {d : Deployment} {shard : Shard} {records : List BatchRecord} {older : History}
  {item : Item} {stop n : ℕ}

/-- Where a loop over row writes is after `done` rows, since its block was claimed. -/
structure PutsSince (isPut : Call → Prop) (start : History) (done : ℕ) (history : History) :
    Prop where
  puts : ∃ puts, history = puts ++ start ∧ puts.length = done ∧ ∀ put ∈ puts, isPut put.call

def IsPositionPut (call : Call) : Prop := ∃ write, call = .putPosition write

def IsPrequeuePut (call : Call) : Prop := ∃ write, call = .putPrequeue write

theorem PutsSince.start (isPut : Call → Prop) (start : History) : PutsSince isPut start 0 start :=
  ⟨[], rfl, rfl, nofun⟩

theorem PutsSince.next {isPut : Call → Prop} {start history : History} {done : ℕ}
    (since : PutsSince isPut start done history) {exchange : Exchange Tables}
    (put : isPut exchange.call) : PutsSince isPut start (done + 1) (exchange :: history) := by
  obtain ⟨puts, rfl, length, puts_only⟩ := since.puts
  exact ⟨exchange :: puts, rfl, by simp [length], List.forall_mem_cons.mpr ⟨put, puts_only⟩⟩

/-- The next row of a claimed live block is legal. -/
theorem PutsSince.position_legal {done : ℕ} {history : History} {write : PositionWrite}
    (since : PutsSince IsPositionPut (liveClaim n item :: older) done history)
    (claimed : num item "queue_counter" = some stop) (room : done < n)
    (position : write.position = saturatingAdd (blockStart stop n) done) :
    legal d (.joinBatch shard records) history (.putPosition write) := by
  obtain ⟨puts, rfl, rfl, puts_only⟩ := since.puts
  exact ⟨⟨shard, records, rfl⟩, puts, n, stop, ⟨⟨item, older, claimed, rfl⟩, puts_only⟩, room,
    position⟩

theorem putPositions_obeys {valid : List (String × JoinMessage)} (size : valid.length = n)
    (claimed : num item "queue_counter" = some stop) :
    Obeys (legal d (.joinBatch shard records))
      (fun later failures => Accounted valid later [] failures ∧
        PutsSince IsPositionPut (liveClaim n item :: older) valid.length later)
      (liveClaim n item :: older)
      (putPositions (blockStart stop n) valid) := by
  refine Obeys.forEach (fun past later failures => Accounted past later [] failures ∧
    PutsSince IsPositionPut (liveClaim n item :: older) past.length later) ⟨.nil, .start _ _⟩ ?_
  rintro past ⟨messageId, msg⟩ rest later failures whole ⟨accounted, since⟩
  have room : past.length < n := by
    rw [← size, whole, List.length_append, List.length_cons]
    omega
  rw [List.length_append, List.length_singleton]
  refine obeys_request_bind (since.position_legal claimed room rfl) ?_ ?_
  · intro error
    exact ⟨accounted.fail nofun, since.next ⟨_, rfl⟩⟩
  · intro outcome
    exact ⟨accounted.shown (.inl ⟨_, outcome, List.mem_cons_self, rfl⟩), since.next ⟨_, rfl⟩⟩

theorem putStragglers_obeys {stragglers : List PreQueueWrite} (size : stragglers.length = n)
    (claimed : num item "queue_counter" = some stop) :
    Obeys (legal d (.joinBatch shard records))
      (fun later _ => (∀ write ∈ stragglers, ∃ puts, later = puts ++ liveClaim n item :: older ∧
          PutFor puts write.requestId) ∧
        PutsSince IsPositionPut (liveClaim n item :: older) stragglers.length later)
      (liveClaim n item :: older) (putStragglers (blockStart stop n) stragglers) := by
  refine Obeys.forEach (fun (past : List PreQueueWrite) later _ =>
    (∀ write ∈ past, ∃ puts, later = puts ++ liveClaim n item :: older ∧
        PutFor puts write.requestId) ∧
      PutsSince IsPositionPut (liveClaim n item :: older) past.length later) ⟨nofun, .start _ _⟩ ?_
  rintro past write rest later - whole ⟨fixed, since⟩
  have room : past.length < n := by
    rw [← size, whole, List.length_append, List.length_cons]
    omega
  rw [List.length_append, List.length_singleton]
  have covers : ∀ put reply, put.requestId = write.requestId → ∀ w ∈ past ++ [write],
      ∃ puts, answered (.putPosition put) reply :: later = puts ++ liveClaim n item :: older ∧
        PutFor puts w.requestId := by
    intro put reply same w among
    rcases List.mem_append.mp among with before | here
    · obtain ⟨puts, rfl, put', reply', member, same'⟩ := fixed w before
      exact ⟨_ :: puts, rfl, put', reply', List.mem_cons_of_mem _ member, same'⟩
    · obtain rfl := List.mem_singleton.mp here
      obtain ⟨puts, rfl, -, -⟩ := since.puts
      exact ⟨_ :: puts, rfl, put, reply, List.mem_cons_self, same⟩
  refine obeys_request_bind (since.position_legal claimed room rfl) ?_ ?_
  · intro error
    exact ⟨covers _ _ rfl, since.next ⟨_, rfl⟩⟩
  · intro outcome
    exact ⟨covers _ _ rfl, since.next ⟨_, rfl⟩⟩

end Live

/-! ## The pre-queue path -/

section Prequeue

variable {d : Deployment} {shard : Shard} {records : List BatchRecord} {older : History}
  {item : Item} {stop start count : ℕ}

/-- The next row of a claimed shard block is legal. -/
theorem PutsSince.prequeue_legal {done : ℕ} {history : History} {write : PreQueueWrite}
    (since : PutsSince IsPrequeuePut (shardClaim write.shard count item :: older) done history)
    (claimed : num item shardCountAttr = some stop) (from_stop : checkedSub stop count = some start)
    (room : done < count) (localIndex : write.localIndex = saturatingAdd start done) :
    legal d (.joinBatch shard records) history (.putPrequeue write) := by
  obtain ⟨puts, rfl, rfl, puts_only⟩ := since.puts
  exact ⟨⟨shard, records, rfl⟩, puts, count, start,
    ⟨⟨item, stop, older, claimed, from_stop, rfl⟩, puts_only⟩, room, localIndex⟩

theorem wrotePrequeue_cons {history : History} {exchange : Exchange Tables} {write : PreQueueWrite} :
    WrotePrequeue (exchange :: history) write ↔
      exchange = answered (.putPrequeue write) (.ok .written) ∨ WrotePrequeue history write := by
  rw [WrotePrequeue, List.mem_cons, eq_comm]
  rfl

theorem putPrequeues_obeys {group : List (String × JoinMessage)} (size : group.length = count)
    (distinct : (group.map fun record => record.2.requestId).Nodup)
    (claimed : num item shardCountAttr = some stop) (from_stop : checkedSub stop count = some start)
    (unwritten : ∀ write, ¬ WrotePrequeue (shardClaim shard count item :: older) write) :
    Obeys (legal d (.joinBatch shard records))
      (fun later result => Accounted group later result.1 result.2 ∧
        (∀ write, WrotePrequeue later write ↔ write ∈ result.1) ∧
        PutsSince IsPrequeuePut (shardClaim shard count item :: older) group.length later)
      (shardClaim shard count item :: older) (putPrequeues shard start group) := by
  refine Obeys.forEach (fun (past : List (String × JoinMessage)) later
      (result : List PreQueueWrite × List String) => Accounted past later result.1 result.2 ∧
      (∀ write, WrotePrequeue later write ↔ write ∈ result.1) ∧
      PutsSince IsPrequeuePut (shardClaim shard count item :: older) past.length later)
    ⟨.nil, fun write => iff_of_false (unwritten write) List.not_mem_nil, .start _ _⟩ ?_
  rintro past ⟨messageId, msg⟩ rest later ⟨written, failures⟩ whole ⟨accounted, observed, since⟩
  have room : past.length < count := by
    rw [← size, whole, List.length_append, List.length_cons]
    omega
  -- the ids of a group are distinct, so no earlier record shares this one's
  have fresh : ∀ record ∈ past, record.2.requestId ≠ msg.requestId := by
    rw [whole, List.map_append, List.map_cons] at distinct
    intro record before same
    have disjoint := (List.nodup_append.mp distinct).2.2
    exact disjoint _ (List.mem_map_of_mem before) _ List.mem_cons_self same
  have freshWritten : ∀ write ∈ written, write.requestId ≠ msg.requestId := by
    intro write among
    obtain ⟨record, before, same⟩ := accounted.owned write among
    exact same ▸ fresh record before
  rw [List.length_append, List.length_singleton]
  refine obeys_request_bind (since.prequeue_legal claimed from_stop room rfl) ?_ ?_
  · intro error
    refine ⟨accounted.fail freshWritten, fun write => ?_, since.next ⟨_, rfl⟩⟩
    rw [wrotePrequeue_cons, observed write, or_iff_right]
    nofun
  · intro outcome
    have shows_ : ShowsRow (answered (.putPrequeue ⟨msg.requestId, shard,
        saturatingAdd start past.length, msg.h⟩) (.ok outcome) :: later) msg.requestId :=
      .inr (.inl ⟨_, outcome, List.mem_cons_self, rfl⟩)
    cases outcome with
    | written =>
        refine ⟨accounted.wrote shows_ rfl fresh, fun write => ?_, since.next ⟨_, rfl⟩⟩
        rw [wrotePrequeue_cons, observed write, List.mem_append, List.mem_singleton, or_comm]
        refine or_congr_right ⟨fun same => ?_, fun same => by rw [same]⟩
        cases same
        rfl
    | duplicate =>
        refine ⟨accounted.shown shows_, fun write => ?_, since.next ⟨_, rfl⟩⟩
        rw [wrotePrequeue_cons, observed write, or_iff_right]
        nofun

/-- What a fix-up leaves: it wrote no pre-queue row, and every row it was given was looked at
after it was written. -/
structure FixedUp (d : Deployment) (written : List PreQueueWrite) (history later : History) :
    Prop where
  grows : ∃ newer, later = newer ++ history ∧ ∀ write, ¬ WrotePrequeue newer write
  looked : ∀ write ∈ written, LookedAgain d later write

theorem fixupStragglers_obeys {history : History} {written : List PreQueueWrite}
    (wrote : ∀ write ∈ written, WrotePrequeue history write)
    (unclaimed : ∀ exchange ∈ history, ∀ n, exchange.call ≠ .updateCounters (.claimBlock n)) :
    Obeys (legal d (.joinBatch shard records)) (fun later _ => FixedUp d written history later)
      history (fixupStragglers d.eventId written) := by
  refine obeys_request_bind trivial ?_ ?_
  · intro error
    refine ⟨⟨[answered (.getCounters true) (.error error)], rfl, by simp [WrotePrequeue]⟩, ?_⟩
    exact fun write among => ⟨[], _, history, rfl, wrote write among, nofun⟩
  intro answer
  -- unless the row is seen uncounted, reading the counters is all there is to do
  have glance : (∀ write ∈ written, ∀ item outputs, answer = some item →
      (d.parse item).openOutputs = some outputs →
      outputs.offsets.assign write.shard write.localIndex ≠ .liveJoin) →
      FixedUp d written history (answered (.getCounters true) (.ok answer) :: history) := by
    intro counted
    refine ⟨⟨[_], rfl, by simp [WrotePrequeue]⟩, fun write among =>
      ⟨[], _, history, rfl, wrote write among, fun item outputs read opened straggles => ?_⟩⟩
    exact absurd straggles (counted write among item outputs (Except.ok.inj read) opened)
  cases answer with
  | none => exact glance nofun
  | some item =>
      simp only [Option.map_some, Option.bind_some]
      cases opened : (Counters.fromItem d.eventId item).openOutputs with
      | none =>
          refine glance fun write _ item' outputs same opened' => ?_
          obtain rfl := Option.some.inj same
          cases opened.symm.trans opened'
      | some outputs =>
          simp only
          have straggler : ∀ write ∈ written,
              outputs.offsets.assign write.shard write.localIndex = .liveJoin →
              write ∈ stragglersOf outputs written := fun write among straggles =>
            List.mem_filter.mpr ⟨among, decide_eq_true straggles⟩
          by_cases nobody : (stragglersOf outputs written).isEmpty
          · rw [if_pos nobody]
            refine glance fun write among item' outputs' same opened' straggles => ?_
            obtain rfl := Option.some.inj same
            obtain rfl := Option.some.inj (opened.symm.trans opened')
            have among' := straggler write among straggles
            rw [List.isEmpty_iff.mp nobody] at among'
            cases among'
          · rw [if_neg nobody]
            have once : ∀ exchange ∈ answered (.getCounters true) (.ok (some item)) :: history,
                ∀ n, exchange.call ≠ .updateCounters (.claimBlock n) :=
              List.forall_mem_cons.mpr ⟨nofun, unclaimed⟩
            have gaveUp : ∀ claim, BlockFailed claim → FixedUp d written history
                (answered (.updateCounters (.claimBlock (stragglersOf outputs written).length)) claim ::
                  answered (.getCounters true) (.ok (some item)) :: history) := by
              intro claim failed
              refine ⟨⟨[_, _], rfl, by simp [WrotePrequeue]⟩, fun write among => ?_⟩
              exact ⟨[_], _, history, rfl, wrote write among, fun _ _ _ _ _ =>
                .inl ⟨_, claim, List.mem_singleton.mpr rfl, failed⟩⟩
            refine obeys_request_bind ⟨⟨shard, records, rfl⟩,
              ⟨item, List.mem_cons_self, by rw [opened]; nofun⟩, once⟩ ?_ ?_
            · intro error
              exact gaveUp _ nofun
            intro attributes
            cases attributes with
            | none => exact gaveUp _ nofun
            | some item' =>
                simp only [Option.bind_some]
                cases claimed : num item' "queue_counter" with
                | none =>
                    refine gaveUp _ fun item'' stop same => ?_
                    obtain rfl := Option.some.inj (Except.ok.inj same)
                    rw [claimed]
                    nofun
                | some stop =>
                    refine (putStragglers_obeys rfl claimed).mono (fun _ _ => id) ?_
                    rintro later - ⟨fixed, since⟩
                    obtain ⟨puts, rfl, -, puts_only⟩ := since.puts
                    refine ⟨⟨puts ++ [liveClaim _ item', answered (.getCounters true) (.ok (some item))],
                      by rw [List.append_assoc]; rfl, fun write wrote => ?_⟩, fun write among => ?_⟩
                    · rcases List.mem_append.mp wrote with among | rest
                      · obtain ⟨put, same⟩ := puts_only _ among
                        cases same
                      · simp at rest
                    · refine ⟨puts ++ [liveClaim _ item'], _, history, by rw [List.append_assoc]; rfl,
                        wrote write among,
                        fun item'' outputs' same opened' straggles => .inr ?_⟩
                      obtain rfl := Option.some.inj (Except.ok.inj same)
                      obtain rfl := Option.some.inj (opened.symm.trans opened')
                      obtain ⟨puts', whole, put, reply, member, mine⟩ :=
                        fixed write (straggler write among straggles)
                      obtain rfl := List.append_cancel_right whole
                      exact ⟨put, reply, List.mem_append_left _ member, mine⟩

/-- What a read of the registered ids leaves: it made batch reads only, and every id it found
has a row. -/
structure ReadRegistered (history later : History) (found : List RequestId) : Prop where
  reads : ∃ reads, later = reads ++ history ∧
    ∀ read ∈ reads, ∃ requestIds, read.call = .batchGetPrequeue requestIds
  shown : ∀ requestId ∈ found, ShowsRow later requestId

theorem registeredIds_obeys (history : History) (requestIds : List RequestId) :
    Obeys (legal d (.joinBatch shard records))
      (fun later => onResult (ReadRegistered history later) fun _ => ReadRegistered history later [])
      history (registeredIds requestIds) := by
  have start : ReadRegistered history history [] := ⟨⟨[], rfl, nofun⟩, by simp⟩
  refine Obeys.tryEach (fun (_ : List (List RequestId)) later found =>
    ReadRegistered history later found) start ?_
  intro past chunk rest later found _ ⟨⟨reads, grown, reads_only⟩, shown⟩
  have next : ∀ answer, ∃ newer, answered (.batchGetPrequeue chunk) answer :: later =
      newer ++ history ∧ ∀ read ∈ newer, ∃ requestIds, read.call = .batchGetPrequeue requestIds :=
    fun answer => ⟨answered (.batchGetPrequeue chunk) answer :: reads, by rw [grown]; rfl,
      List.forall_mem_cons.mpr ⟨⟨chunk, rfl⟩, reads_only⟩⟩
  refine obeys_request trivial (fun error => ⟨next _, by simp⟩) fun present => ⟨next _, ?_⟩
  intro requestId among
  rcases List.mem_append.mp among with before | here
  · exact (shown requestId before).mono (List.subset_cons_self _ _)
  · exact .inr (.inr ⟨chunk, present, List.mem_cons_self, here⟩)

theorem registeredIdsOrUnknown_obeys (history : History) (requestIds : List RequestId) :
    Obeys (legal d (.joinBatch shard records)) (ReadRegistered history) history
      (registeredIdsOrUnknown requestIds) := by
  refine (registeredIds_obeys history requestIds).bind fun later result read => ?_
  cases result with
  | ok found => exact read
  | error error => exact read

end Prequeue

/-! ## Deduplication -/

theorem mem_of_mem_dedupe {valid : List (String × JoinMessage)} {seen : List RequestId}
    {record : String × JoinMessage} (member : record ∈ dedupe valid seen) :
    record ∈ valid ∧ record.2.requestId ∉ seen := by
  induction valid generalizing seen with
  | nil => cases member
  | cons first rest ih =>
      rw [dedupe] at member
      split at member
      · obtain ⟨inside, fresh⟩ := ih member
        exact ⟨List.mem_cons_of_mem _ inside, fresh⟩
      · next unseen =>
          rcases List.mem_cons.mp member with rfl | later
          · exact ⟨List.mem_cons_self, by simpa using unseen⟩
          · obtain ⟨inside, fresh⟩ := ih later
            exact ⟨List.mem_cons_of_mem _ inside, fun old => fresh (List.mem_cons_of_mem _ old)⟩

/-- What is kept has distinct ids. -/
theorem dedupe_nodup (valid : List (String × JoinMessage)) (seen : List RequestId) :
    ((dedupe valid seen).map fun record => record.2.requestId).Nodup := by
  induction valid generalizing seen with
  | nil => exact List.nodup_nil
  | cons first rest ih =>
      rw [dedupe]
      split
      · exact ih seen
      · refine List.nodup_cons.mpr ⟨fun repeated => ?_, ih _⟩
        obtain ⟨record, later, same⟩ := List.mem_map.mp repeated
        exact (mem_of_mem_dedupe later).2 (same ▸ List.mem_cons_self)

/-- Every id that was not seen before is kept once. -/
theorem exists_mem_dedupe {valid : List (String × JoinMessage)} {seen : List RequestId}
    {record : String × JoinMessage} (member : record ∈ valid) (fresh : record.2.requestId ∉ seen) :
    ∃ kept ∈ dedupe valid seen, kept.2.requestId = record.2.requestId := by
  induction valid generalizing seen with
  | nil => cases member
  | cons first rest ih =>
      rw [dedupe]
      split
      · next old =>
          rcases List.mem_cons.mp member with rfl | later
          · exact absurd (by simpa using old) fresh
          · exact ih later fresh
      · rcases List.mem_cons.mp member with rfl | later
        · exact ⟨_, List.mem_cons_self, rfl⟩
        · by_cases same : record.2.requestId = first.2.requestId
          · exact ⟨_, List.mem_cons_self, same.symm⟩
          · obtain ⟨kept, inside, equal⟩ := ih later fun old => (List.mem_cons.mp old).elim same fresh
            exact ⟨kept, List.mem_cons_of_mem _ inside, equal⟩

/-! ## The batch -/

section Process

variable {d : Deployment} {shard : Shard} {records : List BatchRecord}
  {valid : List (String × JoinMessage)} {item : Item}

theorem not_wrotePrequeue_of_puts {puts : History} (puts_only : ∀ put ∈ puts, IsPositionPut put.call)
    (write : PreQueueWrite) : ¬ WrotePrequeue puts write := by
  intro wrote
  obtain ⟨put, same⟩ := puts_only _ wrote
  cases same

theorem processLiveBatch_obeys (opened : (d.parse item).openOutputs ≠ none) :
    Obeys (legal d (.joinBatch shard records)) (BatchReport d valid)
      [answered (.getCounters true) (.ok (some item))] (processLiveBatch valid) := by
  have admits : ¬ Refuses d (.ok (some item)) := fun refuses => opened refuses.1
  have gaveUp : ∀ claim, BatchReport d valid
      ([answered (.updateCounters (.claimBlock valid.length)) claim] ++
        [answered (.getCounters true) (.ok (some item))]) ⟨valid.map Prod.fst⟩ := by
    intro claim
    refine .failAll (fun write => ?_) fun refuses => absurd refuses admits
    simp [WrotePrequeue]
  refine obeys_request_bind ⟨⟨shard, records, rfl⟩, ⟨item, List.mem_cons_self, opened⟩, by simp⟩ ?_ ?_
  · intro error
    exact gaveUp _
  intro attributes
  cases attributes with
  | none => exact gaveUp _
  | some item' =>
      simp only [Option.bind_some]
      cases claimed : num item' "queue_counter" with
      | none => exact gaveUp _
      | some stop =>
          refine (putPositions_obeys rfl claimed).bind ?_
          rintro later failures ⟨accounted, since⟩
          obtain ⟨puts, rfl, -, puts_only⟩ := since.puts
          have unwritten : ∀ write, ¬ WrotePrequeue (puts ++ [liveClaim valid.length item',
              answered (.getCounters true) (.ok (some item))]) write := by
            intro write wrote
            rcases List.mem_append.mp wrote with among | rest
            · exact not_wrotePrequeue_of_puts puts_only write among
            · simp at rest
          exact
            { covered := fun record member => (accounted.covered record member).imp id fun failed =>
                ⟨record, member, rfl, failed⟩
              sound := fun messageId failed => by
                obtain ⟨msg, inside, -⟩ := accounted.sound messageId failed
                exact ⟨msg, inside⟩
              kept := fun _ write wrote => absurd wrote (unwritten write)
              refused := fun _ => ⟨_, puts ++ [liveClaim valid.length item'],
                by rw [List.append_assoc]; rfl, fun refuses => absurd refuses admits⟩
              looked := fun write wrote => absurd wrote (unwritten write) }

theorem mem_of_mem_groupOf {registered : List RequestId} {record : String × JoinMessage}
    (member : record ∈ groupOf valid registered) : record ∈ valid :=
  (mem_of_mem_dedupe (List.mem_filter.mp member).1).1

theorem groupOf_nodup (valid : List (String × JoinMessage)) (registered : List RequestId) :
    ((groupOf valid registered).map fun record => record.2.requestId).Nodup :=
  (dedupe_nodup valid []).sublist (List.filter_sublist.map _)

/-- An accepted id is registered already or its first record is in the group. -/
theorem registered_or_mem_groupOf {registered : List RequestId} {record : String × JoinMessage}
    (member : record ∈ valid) : record.2.requestId ∈ registered ∨
      ∃ kept ∈ groupOf valid registered, kept.2.requestId = record.2.requestId := by
  have fresh : record.2.requestId ∉ ([] : List RequestId) := List.not_mem_nil
  obtain ⟨kept, inside, same⟩ := exists_mem_dedupe member fresh
  by_cases old : record.2.requestId ∈ registered
  · exact .inl old
  · refine .inr ⟨kept, List.mem_filter.mpr ⟨inside, ?_⟩, same⟩
    simpa [same] using old

/-- A batch whose group is accounted for, after a counters read that let it register. -/
theorem BatchReport.of_group {registered : List RequestId} {history older : History}
    {group : List (String × JoinMessage)} {written : List PreQueueWrite} {failures : List String}
    {answer : Except StoreError (Option Item)} (whole : groupOf valid registered = group)
    (admits : ¬ Refuses d answer)
    (first : ∃ newer, history = newer ++ [answered (.getCounters true) answer]) (extends_ : older ⊆ history)
    (shown : ∀ requestId ∈ registered, ShowsRow older requestId)
    (accounted : Accounted group older written failures)
    (observed : ∀ write, WrotePrequeue history write → write ∈ written)
    (looked : ∀ write ∈ written, LookedAgain d history write) :
    BatchReport d valid history ⟨failures⟩ := by
  subst whole
  refine ⟨?covered, ?sound, ?kept, ?refused, ?looked⟩
  case covered =>
    intro record member
    rcases registered_or_mem_groupOf member with old | ⟨kept, inside, same⟩
    · exact .inl ((shown _ old).mono extends_)
    · rcases accounted.covered kept inside with row | failed
      · exact .inl (same ▸ row.mono extends_)
      · exact .inr ⟨kept, mem_of_mem_groupOf inside, same, failed⟩
  case sound =>
    intro messageId failed
    obtain ⟨msg, inside, -⟩ := accounted.sound messageId failed
    exact ⟨msg, mem_of_mem_groupOf inside⟩
  case kept =>
    intro distinct write wrote record member same failed
    obtain ⟨msg, inside, differ⟩ := accounted.sound record.1 failed
    -- distinct message ids: the failed message is this record's
    have equal : (record.1, msg) = record :=
      List.inj_on_of_nodup_map distinct (mem_of_mem_groupOf inside) member rfl
    exact differ write (observed write wrote) (by rw [← same, ← equal])
  case refused =>
    obtain ⟨newer, whole⟩ := first
    exact fun _ => ⟨answer, newer, whole, fun refuses => absurd refuses admits⟩
  case looked => exact fun write wrote => looked write (observed write wrote)

/-- A group that fails as a whole is accounted for. -/
theorem Accounted.failAll (group : List (String × JoinMessage)) (history : History) :
    Accounted group history [] (group.map Prod.fst) where
  covered record member := .inr (List.mem_map_of_mem member)
  sound messageId failed := by
    obtain ⟨record, inside, rfl⟩ := List.mem_map.mp failed
    exact ⟨record.2, inside, by simp⟩
  owned := by simp

theorem processPrequeueBatch_obeys (phase : (d.parse item).phase = .preQueue) :
    Obeys (legal d (.joinBatch shard records)) (BatchReport d valid)
      [answered (.getCounters true) (.ok (some item))]
      (processPrequeueBatch d.eventId shard valid) := by
  have admits : ¬ Refuses d (.ok (some item)) := fun refuses => refuses.2 phase
  refine (registeredIdsOrUnknown_obeys _ _).bind ?_
  rintro later registered ⟨⟨reads, rfl, reads_only⟩, shown⟩
  have unwritten : ∀ write, ¬ WrotePrequeue
      (reads ++ [answered (.getCounters true) (.ok (some item))]) write := by
    intro write wrote
    rcases List.mem_append.mp wrote with among | rest
    · obtain ⟨requestIds, same⟩ := reads_only _ among
      cases same
    · simp at rest
  have unclaimed : ∀ exchange ∈ reads ++ [answered (.getCounters true) (.ok (some item))],
      (∀ n, exchange.call ≠ .updateCounters (.claimBlock n)) ∧
        ∀ other count, exchange.call ≠ .addShard other count := by
    intro exchange among
    rcases List.mem_append.mp among with read | rest
    · obtain ⟨requestIds, same⟩ := reads_only _ read
      rw [same]
      simp
    · obtain rfl := List.mem_singleton.mp rest
      simp
  change Obeys _ _ _ (if (groupOf valid registered).isEmpty then _ else _)
  generalize whole : groupOf valid registered = group
  by_cases nobody : group.isEmpty
  · rw [if_pos nobody]
    rw [List.isEmpty_iff.mp nobody] at whole
    exact .of_group whole admits ⟨reads, rfl⟩ (List.Subset.refl _) shown .nil
      (fun write wrote => absurd wrote (unwritten write)) (by simp)
  rw [if_neg nobody]
  -- nothing was written when the claim has been answered
  have stillUnwritten : ∀ claim write, ¬ WrotePrequeue (answered (.addShard shard group.length)
      claim :: (reads ++ [answered (.getCounters true) (.ok (some item))])) write := by
    intro claim write wrote
    rcases wrotePrequeue_cons.mp wrote with same | rest
    · cases same
    · exact unwritten write rest
  have gaveUp : ∀ claim, BatchReport d valid (answered (.addShard shard group.length) claim ::
      (reads ++ [answered (.getCounters true) (.ok (some item))])) ⟨group.map Prod.fst⟩ :=
    fun claim => .of_group whole admits ⟨_ :: reads, rfl⟩ (List.Subset.refl _)
      (fun requestId old => (shown requestId old).mono (List.subset_cons_self _ _))
      (.failAll group _) (fun write wrote => absurd wrote (stillUnwritten claim write)) (by simp)
  refine obeys_request_bind ⟨⟨records, rfl⟩, fun exchange among => (unclaimed exchange among).2⟩ ?_ ?_
  · intro error
    exact gaveUp _
  intro attributes
  cases claimed : num attributes shardCountAttr with
  | none => exact gaveUp _
  | some stop =>
      simp only [firstLocalIndex]
      cases from_stop : checkedSub stop group.length with
      | none => exact gaveUp _
      | some start =>
          refine (putPrequeues_obeys rfl (whole ▸ groupOf_nodup valid registered) claimed from_stop
            (stillUnwritten _)).bind ?_
          rintro later ⟨written, failures⟩ ⟨accounted, observed, since⟩
          obtain ⟨puts, rfl, -, puts_only⟩ := since.puts
          simp only at observed accounted ⊢
          have shown' : ∀ requestId ∈ registered, ShowsRow (puts ++ shardClaim shard group.length
              attributes :: (reads ++ [answered (.getCounters true) (.ok (some item))])) requestId :=
            fun requestId old => (shown requestId old).mono fun exchange inside =>
              List.mem_append_right _ (List.mem_cons_of_mem _ inside)
          by_cases none_written : written.isEmpty
          · rw [if_pos none_written]
            refine .of_group whole admits ?_ (List.Subset.refl _) shown' accounted
              (fun write => (observed write).mp) fun write among => ?_
            · exact ⟨puts ++ shardClaim shard group.length attributes :: reads, by simp⟩
            · rw [List.isEmpty_iff.mp none_written] at among
              cases among
          · rw [if_neg none_written]
            refine (fixupStragglers_obeys (fun write among => (observed write).mpr among) ?_).bind ?_
            · intro exchange inside
              rcases List.mem_append.mp inside with put | before
              · obtain ⟨write, same⟩ := puts_only _ put
                rw [same]
                simp
              · rcases List.mem_cons.mp before with rfl | earlier
                · simp
                · exact (unclaimed exchange earlier).1
            · rintro later - ⟨⟨newer, rfl, quiet⟩, looked⟩
              refine .of_group whole admits ?_ (List.subset_append_right _ _) shown' accounted
                (fun write wrote => ?_) looked
              · exact ⟨newer ++ (puts ++ shardClaim shard group.length attributes :: reads), by simp⟩
              · rcases List.mem_append.mp wrote with fresh | before
                · exact absurd fresh (quiet write)
                · exact (observed write).mp before

/-- **Every batch conforms, and its report says what its answers show.** -/
theorem processBatch_obeys (shard : Shard) (records : List BatchRecord) :
    Obeys (legal d (.joinBatch shard records)) (BatchReport d (d.accepted records)) []
      (processBatch d.decode d.eventId shard records) := by
  change Obeys _ _ _ (if (d.accepted records).isEmpty then _ else _)
  by_cases nobody : (d.accepted records).isEmpty
  · rw [if_pos nobody, List.isEmpty_iff.mp nobody]
    exact ⟨nofun, by simp, nofun, fun some_ => absurd rfl some_, nofun⟩
  · rw [if_neg nobody]
    have gaveUp : ∀ answer, BatchReport d (d.accepted records)
        ([] ++ [answered (.getCounters true) answer]) ⟨(d.accepted records).map Prod.fst⟩ :=
      fun answer => .failAll (by simp [WrotePrequeue]) fun _ => rfl
    refine obeys_request_bind trivial (fun error => gaveUp _) fun answer => ?_
    cases answer with
    | none => exact gaveUp _
    | some item =>
        simp only [Option.map_some]
        by_cases opened : (d.parse item).openOutputs.isSome
        · rw [if_pos opened]
          refine processLiveBatch_obeys fun closed => ?_
          rw [closed] at opened
          cases opened
        · rw [if_neg opened]
          by_cases phase : (d.parse item).phase = .preQueue
          · rw [if_pos phase]
            exact processPrequeueBatch_obeys phase
          · rw [if_neg phase]
            exact gaveUp _

end Process

end WaitingRoom
