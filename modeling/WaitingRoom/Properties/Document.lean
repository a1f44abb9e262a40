import WaitingRoom.Lambda.Status
import WaitingRoom.Properties.Phases
import WaitingRoom.Properties.Turns

/-!
# What a status document says

A page acts on documents that are seconds old: an environment answers from its copy, and the copy may
be of a stale read. A document of a state before the open publishes nothing of the draw, one of a state
behind it publishes all of it, and what anyone computes from it is where the room places every
registration from then on (`order_is_verifiable`). A visitor whose place a document's cursor has passed is not told to wait
(`turn_is_kept`).
-/

set_option autoImplicit false

namespace WaitingRoom

open Dynamo Concurrency

section Documents

variable {d : Deployment} {origin old : Db} {c later : Room}

/-- Where the outputs of an open place a registration. -/
def OpenOutputs.place (outputs : OpenOutputs) (hmac : Hmac) (row : PreQueueItem) :
    Except ResolveError ResolvedPosition :=
  if shards ≤ row.s then .error .badShard
  else
    match outputs.offsets.assign row.s row.l with
    | .preQueue index =>
        .ok (.preQueue (prp hmac outputs.seed index outputs.offsets.participantCount))
    | .liveJoin => .ok .liveJoin

/-- A reader of the outputs places a registration by them. -/
theorem resolvePrequeue_eq_place {counters : Counters} {outputs : OpenOutputs} (hmac : Hmac)
    (opened : counters.openOutputs = some outputs) (row : PreQueueItem) :
    counters.resolvePrequeue hmac row = outputs.place hmac row := by
  rw [Counters.resolvePrequeue, opened]
  rfl

/-- Nothing of the draw is published. -/
def StatusResponse.Undrawn (response : StatusResponse) : Prop :=
  response.shuffleSeed = none ∧ response.prequeueOffsets = none ∧ response.participantCount = none

theorem undrawn_of_noOutputs (absent : NoOutputs old) (pollPolicy : Option PollPolicy) (now : ℕ) :
    (status (d.view old) pollPolicy now).Undrawn := by
  have seed := absent "shuffle_seed" (by simp [CountersUpdate.openAttrs])
  have offsets := absent "prequeue_offsets" (by simp [CountersUpdate.openAttrs])
  have size := absent "participant_count" (by simp [CountersUpdate.openAttrs])
  simp only [Db.attr] at seed offsets size
  refine ⟨?_, ?_, ?_⟩
  · simp [status, Counters.fromItem, seed]
  · simp [status, Counters.fromItem, offsets]
  · simp [status, Counters.fromItem, num, size]

/-- **Before the open a document publishes nothing of the draw, and behind it all of it, as every later
document does; where that places a registration is where the room places it from then on.** -/
theorem order_is_verifiable (seeded : Seeded origin) (run : RoomRun d .free origin c)
    (held : Held d .free origin c.log old) (pollPolicy : Option PollPolicy) (now : ℕ) :
    (¬ old.Opened → (status (d.view old) pollPolicy now).Undrawn) ∧
      (old.Opened → ∃ outputs, (status (d.view old) pollPolicy now).openOutputs = some outputs ∧
        ∀ later, (room d).Reaches .free c later →
          (∀ pollPolicy now,
            (status (d.view later.state) pollPolicy now).openOutputs = some outputs) ∧
          ∀ row, (d.view later.state).resolvePrequeue d.hmac row = outputs.place d.hmac row) := by
  have grows := held.grows run.trace
  obtain ⟨newer, older, whole, earlier⟩ := held
  have opening := earlier.opening seeded
  refine ⟨fun unopened => ?_, fun opened => ?_⟩
  · exact undrawn_of_noOutputs (opening.unopened unopened) pollPolicy now
  · obtain ⟨counts, seed, published⟩ := opening.published opened
    refine ⟨.ofCounts counts seed, ?_, fun later goesOn => ?_⟩
    · rw [openOutputs_status, published.outputs]
    · have still := published.grows (grows.trans (run.grows goesOn))
      refine ⟨fun pollPolicy now => ?_, fun row => ?_⟩
      · rw [openOutputs_status, still.outputs]
      · exact resolvePrequeue_eq_place d.hmac still.outputs row

/-- What the environments of a deployment read of the counters is of states the tables held. -/
def ReadsHeld (d : Deployment) (origin : Db) (log : List RoomEntry) {ε : Type}
    (lookups : List (Lookup ε (Option Counters))) : Prop :=
  ∀ lookup ∈ lookups, ∀ value, lookup.reply = .ok value →
    ∃ old, Held d .free origin log old ∧ value = old.counters.map d.parse

/-- **However many requests an environment answers, it reads the counters once for each second and
once more, and it answers with a state that the tables held, read for this request or within the
second before it.** -/
theorem documents_are_fresh {ε : Type} {lookups : List (Lookup ε (Option Counters))}
    (reads : ReadsHeld d origin c.log lookups) {start stop : ℕ} (order : Slot.InOrder start lookups)
    (inside : ∀ lookup ∈ lookups, lookup.asked ≤ stop) :
    (Slot.reads countersTtl none lookups).length * countersTtl ≤ stop - start + countersTtl ∧
      ∀ lookup loaded, (lookup, .ok loaded) ∈ Slot.served countersTtl none lookups →
        (∃ old, Held d .free origin c.log old ∧ loaded = old.counters.map d.parse) ∧
          (lookup.reply = .ok loaded ∨ ∃ read ∈ lookups, read.reply = .ok loaded ∧
            read.arrived ≤ lookup.asked ∧ lookup.asked < read.arrived + countersTtl) := by
  refine ⟨Slot.reads_few order inside, fun lookup loaded answered => ?_⟩
  obtain ⟨before, rest, rfl, here | ⟨read, earlier, reply, fresh⟩⟩ := Slot.served_fresh answered
  · exact ⟨reads lookup (by simp) loaded here, .inl here⟩
  · have past := order.arrived_le earlier
    exact ⟨reads read (List.mem_append_left _ earlier) loaded reply,
      .inr ⟨read, List.mem_append_left _ earlier, reply, past, by omega⟩⟩

/-- The cursor of a copy is behind the cursor. -/
theorem ReadsHeld.serving_le {ε : Type} {lookups : List (Lookup ε (Option Counters))}
    (reads : ReadsHeld d origin c.log lookups) (seeded : Seeded origin)
    (trace : RoomTrace d .free origin c.log c.state) {lookup : Lookup ε (Option Counters)}
    {counters : Counters}
    (loaded : (lookup, .ok (some counters)) ∈ Slot.served countersTtl none lookups) :
    counters.servingCounter ≤ c.state.servingCounter := by
  obtain ⟨read, member, reply⟩ := Slot.exists_read loaded
  obtain ⟨old, held, copied⟩ := reads read member _ reply
  obtain ⟨item, found, rfl⟩ := Option.map_eq_some_iff.mp copied.symm
  rw [Deployment.parse_serving found]
  exact held.serving_le seeded trace

end Documents

/-! ## A sample run -/

/-- The draw of a document is whole, and places a registration. -/
def places (d : Deployment) (db : Db) (row : PreQueueItem) (position : ℕ) : Bool :=
  match (status (d.view db) none 0).openOutputs with
  | some outputs => decide (outputs.place d.hmac row = .ok (.preQueue position))
  | none => false

namespace Sample

/-- Two requests, half a second apart, and the counters as they are. -/
def twoLookups (c : Room) : List (Lookup Unit (Option Counters)) :=
  [⟨0, .ok (some (deployment.view c.state)), 20⟩, ⟨520, .ok (some (deployment.view c.state)), 540⟩]

end Sample

/-- The first document publishes nothing, and where the last one places Alice's registration, the room
places it. -/
theorem order_is_verifiable_sample : ∃ c : Room, RoomRun Sample.deployment .free Sample.origin c ∧
    (status (Sample.deployment.view Sample.origin) none 0).Undrawn ∧
    ∃ outputs, (status (Sample.deployment.view c.state) none 0).openOutputs = some outputs ∧
      outputs.place Sample.deployment.hmac ⟨Sample.alice, 0, 0, none⟩ = .ok (.preQueue 0) ∧
      (Sample.deployment.view c.state).resolvePrequeue Sample.deployment.hmac
        ⟨Sample.alice, 0, 0, none⟩ = .ok (.preQueue 0) := by
  obtain ⟨c, run, good⟩ := System.exists_reaches_of_run
    (show ((room Sample.deployment).run .free (.initial Sample.origin) Sample.placed).any
      (fun c => places Sample.deployment c.state ⟨Sample.alice, 0, 0, none⟩ 0) by decide +kernel)
  have begun : Held Sample.deployment .free Sample.origin c.log Sample.origin :=
    ⟨c.log, [], (List.append_nil _).symm, .nil⟩
  have unopened : ¬ Sample.origin.Opened := fun opened =>
    opened (Sample.origin_seeded.unopened _ (by simp [CountersUpdate.openAttrs]))
  refine ⟨c, run, (order_is_verifiable Sample.origin_seeded run begun none 0).1 unopened, ?_⟩
  unfold places at good
  split at good
  · rename_i outputs published
    have opened : c.state.Opened := by
      rw [openOutputs_status] at published
      exact opened_of_openOutputs (published ▸ Option.some_ne_none outputs)
    obtain ⟨outputs', published', later⟩ := (order_is_verifiable Sample.origin_seeded run
      ⟨[], c.log, rfl, RoomRun.trace run⟩ none 0).2 opened
    obtain rfl := Option.some.inj (published.symm.trans published')
    have place := of_decide_eq_true good
    exact ⟨outputs, published, place, by rw [(later c .refl).2, place]⟩
  · cases good

/-- Lookups that find the counters as they are. -/
theorem readsHeld_now {d : Deployment} {origin : Db} {c : Room} (run : RoomRun d .free origin c)
    (stored : c.state.counters.isSome) {lookups : List (Lookup Unit (Option Counters))}
    (now : ∀ lookup ∈ lookups, lookup.reply = .ok (some (d.view c.state))) :
    ReadsHeld d origin c.log lookups := by
  intro lookup member value reply
  obtain ⟨item, found⟩ := Option.isSome_iff_exists.mp stored
  refine ⟨c.state, ⟨[], c.log, rfl, run.trace⟩, ?_⟩
  rw [now lookup member] at reply
  rw [← Except.ok.inj reply, Deployment.view, found]
  rfl

/-- An environment answers two requests, half a second apart, from one read. -/
theorem documents_are_fresh_sample : ∃ c : Room, RoomRun Sample.deployment .free Sample.origin c ∧
    (Slot.reads countersTtl none (Sample.twoLookups c)).length * 1000 ≤ 1520 ∧
    ∃ old, Held Sample.deployment .free Sample.origin c.log old ∧
      some (Sample.deployment.view c.state) = old.counters.map Sample.deployment.parse := by
  obtain ⟨c, run, stored⟩ := System.exists_reaches_of_run
    (show ((room Sample.deployment).run .free (.initial Sample.origin) Sample.placed).any
      (fun c => c.state.counters.isSome) by decide +kernel)
  have reads : ReadsHeld Sample.deployment Sample.origin c.log (Sample.twoLookups c) :=
    readsHeld_now run stored fun lookup member => by
      rcases List.mem_pair.mp member with rfl | rfl
      · rfl
      · rfl
  have order : Slot.InOrder 0 (Sample.twoLookups c) := by
    simp [Sample.twoLookups, Slot.InOrder]
  have inside : ∀ lookup ∈ Sample.twoLookups c, lookup.asked ≤ 520 := by
    intro lookup member
    rcases List.mem_pair.mp member with rfl | rfl
    · exact Nat.zero_le _
    · exact le_rfl
  obtain ⟨few, answers⟩ := documents_are_fresh reads order inside
  refine ⟨c, run, few, ?_⟩
  exact (answers ⟨520, .ok (some (Sample.deployment.view c.state)), 540⟩ _
    (List.mem_cons_of_mem _ List.mem_cons_self)).1

end WaitingRoom
