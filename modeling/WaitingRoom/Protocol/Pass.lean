import WaitingRoom.Protocol.Legal

/-!
# A controller pass conforms

A pass reads the `Counters` item and the arrivals shards, and the release is its last call. It
moves the cursor only to what `computeRelease` made of what it read, and what it reports to have
released is what that write was answered with (`PassReport`).
-/

set_option autoImplicit false

namespace WaitingRoom

open Dynamo Concurrency

/-- No release was written. -/
def ReleasesNothing (history : History) : Prop :=
  ∀ exchange ∈ history, exchange.call.isRelease = false

theorem Call.isRelease_iff {call : Call} : call.isRelease ↔
    ∃ decision expected, call = .updateCounters (.writeRelease decision expected) := by
  cases call with
  | updateCounters update => cases update <;> simp [Call.isRelease]
  | _ => simp [Call.isRelease]

/-- What a release that was answered released. -/
def releasedBy (decision : ReleaseDecision) (attributes : Option Item) : ℕ :=
  if attributes.isSome then decision.release else 0

/-- What a pass's answers show when it returns. -/
def PassReport (history : History) : Except StoreError PassOutcome → Prop
  | .error _ => ∃ older, ReleasesNothing older ∧ (history = older ∨
      ∃ decision expected error, history =
        answered (.updateCounters (.writeRelease decision expected)) (.error error) :: older)
  | .ok (.notActive _) => ReleasesNothing history
  | .ok (.held _) => ReleasesNothing history
  | .ok (.ran released) => ∃ decision expected attributes older, ReleasesNothing older ∧
      history = answered (.updateCounters (.writeRelease decision expected)) (.ok attributes) ::
        older ∧ released = releasedBy decision attributes

/-- The protocol of a pass: no call follows a release. -/
def passLegal (d : Deployment) (job : Job) (history : History) (call : Call) : Prop :=
  legal d job history call ∧ ∀ now order, job = .controllerPass now order → ReleasesNothing history

section Pass

variable {d : Deployment} {history : History} {now : ℕ} {order : ShardOrder} {item : Item}
  {items : List Item}

/-- What a pass has read so far. -/
structure PassSoFar (history : History) (item : Item) (items : List Item) : Prop where
  counters : answered (.getCounters true) (.ok (some item)) ∈ history
  others : ∀ exchange ∈ history, exchange = answered (.getCounters true) (.ok (some item)) ∨
    ∃ shard, exchange.call = .getArrivals shard
  from_read : ∀ read ∈ items, ∃ shard, answered (.getArrivals shard) (.ok (some read)) ∈ history

theorem PassSoFar.releasesNothing (reads : PassSoFar history item items) :
    ReleasesNothing history := by
  intro exchange member
  rcases reads.others exchange member with rfl | ⟨shard, call⟩
  · rfl
  · rw [call]
    rfl

/-- One more shard was read. -/
theorem PassSoFar.next (reads : PassSoFar history item items) (shard : Shard)
    (found : Option Item) :
    PassSoFar (answered (.getArrivals shard) (.ok found) :: history) item
      (items ++ found.toList) where
  counters := List.mem_cons_of_mem _ reads.counters
  others exchange member := by
    rcases List.mem_cons.mp member with rfl | older
    · exact .inr ⟨shard, rfl⟩
    · exact reads.others exchange older
  from_read read member := by
    rcases List.mem_append.mp member with older | now
    · obtain ⟨other, inside⟩ := reads.from_read read older
      exact ⟨other, List.mem_cons_of_mem _ inside⟩
    · obtain rfl := Option.mem_toList.mp now
      exact ⟨shard, List.mem_cons_self⟩

theorem ReleasesNothing.cons {exchange : Exchange Tables} (nothing : ReleasesNothing history)
    (other : exchange.call.isRelease = false) : ReleasesNothing (exchange :: history) := by
  intro later member
  rcases List.mem_cons.mp member with rfl | older
  · exact other
  · exact nothing later older

theorem readArrivals_obeys (reads : PassSoFar history item []) :
    Obeys (passLegal d (.controllerPass now order))
      (fun later => onResult (PassReads later item) fun _ => ReleasesNothing later) history
      (readArrivals order) := by
  have found : Obeys (passLegal d (.controllerPass now order))
      (fun later => onResult (PassSoFar later item) fun _ => ReleasesNothing later) history
      (readArrivalItems order) := by
    refine Obeys.tryEach (fun (_ : List Shard) later items => PassSoFar later item items) reads ?_
    intro past shard rest later found _ so_far
    refine obeys_request ⟨trivial, fun _ _ _ => so_far.releasesNothing⟩ (fun error => ?_)
      fun item => so_far.next shard item
    exact so_far.releasesNothing.cons rfl
  refine found.bind fun later result so_far => ?_
  cases result with
  | error error => exact so_far
  | ok items =>
      change onResult _ _ (arrivalsFromShardItems items fun _ => 0)
      cases folded : arrivalsFromShardItems items fun _ => 0 with
      | error error => exact PassSoFar.releasesNothing so_far
      | ok arrivals =>
          exact ⟨so_far.counters, so_far.others, items, folded, so_far.from_read⟩

theorem readState_obeys (eventId : String) :
    Obeys (passLegal d (.controllerPass now order))
      (fun later => onResult (fun state => ∃ item arrivals, PassReads later item arrivals ∧
        state = controllerStateOf item arrivals) fun _ => ReleasesNothing later) []
      (readState eventId order) := by
  have nothing : ReleasesNothing [] := nofun
  refine obeys_request_bind ⟨trivial, fun _ _ _ => nothing⟩ (fun error => nothing.cons rfl) ?_
  intro item
  cases item with
  | none => exact nothing.cons rfl
  | some item =>
      have start : PassSoFar [answered (.getCounters true) (.ok (some item))] item [] :=
        ⟨List.mem_cons_self, fun exchange member => .inl (List.mem_singleton.mp member), nofun⟩
      refine (readArrivals_obeys start).bind fun later result read => ?_
      cases result with
      | error error => exact read
      | ok arrivals => exact ⟨item, arrivals, read, rfl⟩

theorem PassReads.releasesNothing {arrivals : Shard → ℕ} (reads : PassReads history item arrivals) :
    ReleasesNothing history := by
  obtain ⟨items, -, from_read⟩ := reads.folded
  exact PassSoFar.releasesNothing ⟨reads.counters, reads.others, from_read⟩

/-- **A pass conforms, and reports what its release was answered with.** -/
theorem runPass_obeys (eventId : String) (now : ℕ) (order : ShardOrder) :
    Obeys (passLegal d (.controllerPass now order)) PassReport [] (runPass eventId now order) := by
  refine (readState_obeys eventId).bind fun later result read => ?_
  cases result with
  | error error => exact ⟨later, read, .inl rfl⟩
  | ok state =>
      obtain ⟨item, arrivals, reads, rfl⟩ := read
      have nothing := reads.releasesNothing
      simp only
      by_cases phase : (controllerStateOf item arrivals).phase ≠ .active
      · rw [if_pos phase]
        exact nothing
      rw [if_neg phase]
      cases admits : resolve (controllerStateOf item arrivals).storedControl
          (controllerStateOf item arrivals).failOpenUntil now with
      | paused => exact nothing
      | failOpen => exact nothing
      | «open» =>
          have lawful : legal d (.controllerPass now order) later
              (.updateCounters (.writeRelease (computeRelease f64
                (controllerStateOf item arrivals).inputs (storedNoShow item) now)
                (controllerStateOf item arrivals).inputs.servingCounter)) :=
            ⟨now, order, item, arrivals, rfl, reads, not_not.mp phase, admits, rfl, rfl⟩
          refine obeys_request_bind ⟨lawful, fun _ _ _ => nothing⟩ (fun error => ?_) ?_
          · exact ⟨later, nothing, .inr ⟨_, _, error, rfl⟩⟩
          · intro attributes
            cases attributes with
            | none => exact ⟨_, _, none, later, nothing, rfl, rfl⟩
            | some attributes => exact ⟨_, _, some attributes, later, nothing, rfl, rfl⟩

end Pass

end WaitingRoom
