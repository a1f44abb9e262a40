import WaitingRoom.Protocol.Blocks
import WaitingRoom.Protocol.Releases
import Mathlib.Data.Set.Card
import Mathlib.Order.Interval.Set.Nat

/-!
# People and numbers

The controller measures last interval's releases by a difference of two cursors. The cohort has
the positions from `0`, and the live joins those behind `participant_count`, so of the numbers up
to the end of the line nobody holds `participant_count` itself, and the numbers of the blocks that no
claim returned (`RoomTrace.issued_iff`). The measurement leaves out the number `0` instead, so it
counts people exactly when an interval that starts at `0` has one number that nobody holds, and any
other interval none (`releasedLast_counts_people`).
-/

set_option autoImplicit false

namespace WaitingRoom

open Dynamo Concurrency

/-- The size of the cohort. -/
abbrev Db.participantCount (db : Db) : ℕ := db.reading "participant_count"

/-- A position of a block that a claim returned. -/
def InReturnedBlock (claim : RoomEntry) (position : ℕ) : Prop :=
  ∃ n item stop, claim.exchange = liveClaim n item ∧ num item "queue_counter" = some stop ∧
    ∃ index < n, position = saturatingAdd (blockStart stop n) index

/-- A position of the cohort, or of a block that a claim returned. -/
def Issued (log : List RoomEntry) (db : Db) (position : ℕ) : Prop :=
  position < db.participantCount ∨ ∃ claim ∈ log, InReturnedBlock claim position

/-- A claim returned its block. -/
def Returned (claim : RoomEntry) : Prop :=
  ∃ n item stop, claim.exchange = liveClaim n item ∧ num item "queue_counter" = some stop

/-- A position of a block that a claim took from the line and did not return. -/
def InLostBlock (claim : RoomEntry) (position : ℕ) : Prop :=
  IsLiveClaim claim.exchange ∧ ¬ Returned claim ∧
    claim.before.line < position ∧ (position : ℚ) ≤ claim.after.line

/-- A number of the line that nobody holds: the size of the cohort, or of a block that no claim
returned. -/
def Unissued (log : List RoomEntry) (db : Db) (position : ℕ) : Prop :=
  position = db.participantCount ∨ ∃ claim ∈ log, InLostBlock claim position

/-- The calls that claim a block of live positions. -/
def Call.claimsBlock : Call → Bool
  | .updateCounters (.claimBlock _) => true
  | _ => false

/-- What a pass that reads this state takes last interval's releases to be. -/
def Db.releasedLast (db : Db) : ℕ :=
  (controllerStateOf (db.counters.getD .empty) fun _ => 0).inputs.releasedLast

section Measured

variable {d : Deployment} {policy : RoomPolicy} {origin db : Db} {log older : List RoomEntry}
  {entry claim : RoomEntry} {position : ℕ}

/-- The positions of a block are those the claim moved the end of the line across. -/
theorem Logged.inBlock_iff (seeded : Seeded origin) (logged : Logged d policy origin older claim)
    {n stop : ℕ} {item : Item} (same : claim.exchange = liveClaim n item)
    (claimed : num item "queue_counter" = some stop) :
    (∃ index < n, position = saturatingAdd (blockStart stop n) index) ↔
      claim.before.line < position ∧ (position : ℚ) ≤ claim.after.line := by
  obtain ⟨-, start, finish⟩ := logged.liveBlock same claimed
  obtain ⟨line, stored⟩ := (logged.earlier.lineCounted seeded).whole
  rw [line_of_attr stored] at start ⊢
  rw [finish]
  have sum : line + n = stop := by exact_mod_cast start
  have block : ∀ index < n, saturatingAdd (blockStart stop n) index = line + 1 + index := by
    intro index room
    rw [blockPosition_eq (by omega) (num_lt claimed) room]
    omega
  rw [Nat.cast_lt, Nat.cast_le]
  constructor
  · rintro ⟨index, room, rfl⟩
    rw [block index room]
    omega
  · rintro ⟨above, below⟩
    refine ⟨position - line - 1, by omega, ?_⟩
    rw [block _ (by omega)]
    omega

/-- An opened event keeps the size of its cohort. -/
theorem participantCount_of_grows {db' : Db} (grows : db.Grows db') (opened : db.Opened) :
    db'.participantCount = db.participantCount :=
  reading_congr (grows.opened opened _ (by simp [CountersUpdate.openAttrs]))

/-- The end of the line changes by a claim, or by the open, which sets it to the cohort's size. -/
theorem Logged.line_moved (logged : Logged d policy origin older entry) :
    entry.after.line = entry.before.line ∨
      (∃ n, entry.exchange.call = .updateCounters (.claimBlock n)) ∨
      ¬ entry.before.Opened ∧ entry.after.line = entry.after.participantCount := by
  rcases logged.effect.counters_cases with same | ⟨update, item, call, updated, after⟩
  · exact .inl (by rw [Db.line, Db.line, Db.number, Db.number, same])
  rcases updateItem_line updated with same | ⟨n, rfl, -⟩ | ⟨values, rfl, line⟩
  · left
    rw [Db.line, Db.line, Db.number, Db.number, numberOf, numberOf, after, Option.getD_some, same]
  · exact .inr (.inl ⟨n, call⟩)
  · have guard := updateItem_holds updated
    simp only [CountersUpdate.condition, openGuard, Condition.holds, Bool.and_eq_true,
      Option.isNone_iff_eq_none] at guard
    have size : item "participant_count" = some (.N values.participantCount) :=
      updateItem_set [_] updated (by simp [Clause.attr])
    have lawful := logged.lawful
    rw [call] at lawful
    have inside : values.participantCount < u64Bound := by
      obtain ⟨-, counts, seed, -, -, computed⟩ := lawful.folded
      obtain ⟨bounded, rfl⟩ := openValues_eq_ok.mp computed
      exact bounded
    refine .inr (.inr ⟨fun opened => opened guard.1, ?_⟩)
    have stored : entry.after.attr "participant_count" = some (.N values.participantCount) := by
      rw [Db.attr, after, Option.getD_some, size]
    have reset : entry.after.attr "queue_counter" = some (.N values.participantCount) := by
      rw [Db.attr, after, Option.getD_some, line]
    rw [line_of_attr reset, Db.participantCount, reading_of_attr stored inside]

/-- The line of an opened event starts behind its cohort. -/
theorem RoomTrace.participantCount_le_line (seeded : Seeded origin)
    (trace : RoomTrace d policy origin log db) (opened : db.Opened) :
    (db.participantCount : ℚ) ≤ db.line := by
  obtain ⟨counts, seed, published⟩ := (trace.opening seeded).published opened
  have starts := trace.startsBehind seeded _ published.outputs
  have parsed := published.outputs
  simp only [Deployment.view, Counters.openOutputs, Option.bind_eq_bind, Option.bind_eq_some_iff,
    Option.pure_def, Option.some.injEq] at parsed
  obtain ⟨seed', -, offsets, -, size, read, outputs⟩ := parsed
  have same : db.participantCount = (OpenOutputs.ofCounts counts seed).offsets.participantCount := by
    rw [← outputs]
    exact congrArg (Option.getD · 0) read
  rw [same]
  exact starts

/-- Every position behind the cohort and up to the end of the line was claimed. -/
theorem RoomTrace.claimed_of_le_line (seeded : Seeded origin)
    (trace : RoomTrace d policy origin log db) (opened : db.Opened)
    (behind : db.participantCount < position) (inLine : (position : ℚ) ≤ db.line) :
    ∃ claim ∈ log, InReturnedBlock claim position ∨ InLostBlock claim position := by
  revert opened behind inLine
  refine trace.rule (motive := fun log db => db.Opened → db.participantCount < position →
    (position : ℚ) ≤ db.line → ∃ claim ∈ log, InReturnedBlock claim position ∨ InLostBlock claim position) ?_ ?_
  · intro opened
    exact absurd (seeded.unopened _ (by simp [CountersUpdate.openAttrs])) opened
  intro entry older logged before opened behind inLine
  by_cases already : entry.before.Opened
  · rw [participantCount_of_grows logged.grows already] at behind
    by_cases there : (position : ℚ) ≤ entry.before.line
    · obtain ⟨claim, member, block⟩ := before [] older _ rfl logged.earlier already behind there
      exact ⟨claim, List.mem_cons_of_mem _ member, block⟩
    · -- this call moved the end of the line across the position
      have moved : entry.after.line ≠ entry.before.line := fun same => there (same ▸ inLine)
      rcases logged.line_moved with same | ⟨n, call⟩ | ⟨unopened, -⟩
      · exact absurd same moved
      · refine ⟨entry, List.mem_cons_self, ?_⟩
        by_cases returned : Returned entry
        · obtain ⟨n, item, stop, same, claimed⟩ := returned
          exact .inl ⟨n, item, stop, same, claimed,
            (logged.inBlock_iff seeded same claimed).mpr ⟨not_le.mp there, inLine⟩⟩
        · exact .inr ⟨⟨n, call⟩, returned, not_le.mp there, inLine⟩
      · exact absurd already unopened
  · rcases logged.line_moved with same | ⟨n, call⟩ | ⟨-, same⟩
    · -- the line was still empty
      have empty := line_of_attr ((logged.earlier.lineCounted seeded).unopened already)
      rw [same, empty] at inLine
      have least : position ≤ 0 := by exact_mod_cast inLine
      omega
    · exact absurd (logged.opened_of_claims call) already
    · rw [same, Nat.cast_le] at inLine
      exact absurd behind (not_lt.mpr inLine)

/-- A block that was claimed lies behind the cohort. -/
theorem RoomTrace.claim_behind (seeded : Seeded origin) (trace : RoomTrace d policy origin log db)
    (member : claim ∈ log) (claims : IsLiveClaim claim.exchange) (above : claim.before.line < position) :
    db.participantCount < position := by
  obtain ⟨newer, older, -, logged⟩ := trace.logged_of_mem member
  obtain ⟨n, call⟩ := claims
  have opened := logged.opened_of_claims call
  have start := logged.earlier.participantCount_le_line seeded opened
  rw [participantCount_of_grows (trace.before_grows member) opened]
  exact_mod_cast start.trans_lt above

/-- A number that was returned is of no block that was lost. -/
theorem RoomTrace.not_lost_of_returned (seeded : Seeded origin)
    (trace : RoomTrace d policy origin log db) {claim' : RoomEntry} (member : claim ∈ log)
    (member' : claim' ∈ log) (block : InReturnedBlock claim position) :
    ¬ InLostBlock claim' position := by
  rintro ⟨claims', unreturned, above', below'⟩
  obtain ⟨n, item, stop, same, claimed, inBlock⟩ := block
  have differ : claim ≠ claim' := by
    rintro rfl
    exact unreturned ⟨n, item, stop, same, claimed⟩
  obtain ⟨_, _, -, logged⟩ := trace.logged_of_mem member
  obtain ⟨above, below⟩ := (logged.inBlock_iff seeded same claimed).mp inBlock
  have claims : IsLiveClaim claim.exchange := ⟨n, by rw [same]⟩
  have apart := trace.liveClaims_apart seeded
  -- the later of the two claims starts where the earlier one ended, or behind
  rcases exists_split_of_ne member member' differ with ⟨newer, older, whole, under⟩ |
    ⟨newer, older, whole, under⟩
  · exact absurd (apart.grows newer claim older claim' whole under claims claims')
      (not_le.mpr (above.trans_le below'))
  · exact absurd (apart.grows newer claim' older claim whole under claims' claims)
      (not_le.mpr (above'.trans_le below))

/-- The numbers that people hold: all up to the end of the line but those that nobody holds. -/
theorem RoomTrace.issued_iff (seeded : Seeded origin) (trace : RoomTrace d policy origin log db)
    (opened : db.Opened) :
    Issued log db position ↔ ¬ Unissued log db position ∧ (position : ℚ) ≤ db.line := by
  constructor
  · rintro (cohort | ⟨claim, member, block⟩)
    · refine ⟨?_, ?_⟩
      · rintro (size | ⟨claim, member, claims, -, above, -⟩)
        · exact absurd size cohort.ne
        · exact absurd (trace.claim_behind seeded member claims above) cohort.not_gt
      · have inside : (position : ℚ) ≤ db.participantCount := Nat.cast_le.mpr cohort.le
        exact inside.trans (trace.participantCount_le_line seeded opened)
    · obtain ⟨_, _, rfl, logged⟩ := trace.logged_of_mem member
      have ⟨n, item, stop, same, claimed, inBlock⟩ := block
      obtain ⟨above, below⟩ := (logged.inBlock_iff seeded same claimed).mp inBlock
      refine ⟨?_, below.trans (trace.line_grows seeded trace.at_entry)⟩
      rintro (size | ⟨claim', member', lost⟩)
      · exact absurd size (trace.claim_behind seeded member ⟨n, by rw [same]⟩ above).ne'
      · exact trace.not_lost_of_returned seeded member member' block lost
  · rintro ⟨held, inLine⟩
    rcases Nat.lt_trichotomy position db.participantCount with cohort | size | behind
    · exact .inl cohort
    · exact absurd (.inl size) held
    · obtain ⟨claim, member, block | lost⟩ := trace.claimed_of_le_line seeded opened behind inLine
      · exact .inr ⟨claim, member, block⟩
      · exact absurd (.inr ⟨claim, member, lost⟩) held

/-- How many people hold a number of an interval of the line. -/
theorem RoomTrace.issued_ncard (seeded : Seeded origin) (trace : RoomTrace d policy origin log db)
    (opened : db.Opened) (first : ℕ) {stop : ℕ} (inLine : (stop : ℚ) ≤ db.line + 1) :
    {position | Issued log db position ∧ first ≤ position ∧ position < stop}.ncard +
        {position | Unissued log db position ∧ first ≤ position ∧ position < stop}.ncard =
      stop - first := by
  have people : {position | Issued log db position ∧ first ≤ position ∧ position < stop} =
      Set.Ico first stop \ {position | Unissued log db position ∧ first ≤ position ∧ position < stop} := by
    ext position
    simp only [Set.mem_ofPred_eq, Set.mem_sdiff, Set.mem_Ico]
    rw [trace.issued_iff seeded opened]
    constructor
    · rintro ⟨⟨held, -⟩, inside⟩
      exact ⟨inside, fun unissued => held unissued.1⟩
    · rintro ⟨inside, held⟩
      have below : (position : ℚ) + 1 ≤ stop := by exact_mod_cast inside.2
      exact ⟨⟨fun unissued => held ⟨unissued, inside⟩, by linarith⟩, inside⟩
  have within : {position | Unissued log db position ∧ first ≤ position ∧ position < stop} ⊆
      Set.Ico first stop := fun _ member => member.2
  rw [people, Set.ncard_sdiff_add_ncard_of_subset within (Set.finite_Ico first stop), Set.ncard_Ico_nat]

/-- The cursor stays within the line. -/
theorem RoomTrace.cursor_in_line (seeded : Seeded origin) (trace : RoomTrace d policy origin log db) :
    (db.servingCounter : ℚ) ≤ db.line + 1 := by
  have cursor := trace.cursor seeded
  obtain ⟨n, inside, stored⟩ := cursor.whole
  have bounded := cursor.bounded
  rw [cursor_of_attr stored] at bounded
  rwa [Db.servingCounter, reading_of_attr stored inside]

/-- Where no block was claimed, nobody holds the number of the cohort's size only. -/
theorem unissued_iff_of_unclaimed
    (unclaimed : (log.all fun entry => !entry.exchange.call.claimsBlock) = true) :
    Unissued log db position ↔ position = db.participantCount := by
  rw [List.all_eq_true] at unclaimed
  constructor
  · rintro (size | ⟨claim, member, ⟨n, call⟩, -⟩)
    · exact size
    · have none_claimed := unclaimed claim member
      rw [call] at none_claimed
      cases none_claimed
  · exact .inl

theorem unissued_within {first stop : ℕ}
    (unclaimed : (log.all fun entry => !entry.exchange.call.claimsBlock) = true)
    (above : first ≤ db.participantCount) (below : db.participantCount < stop) :
    {position | Unissued log db position ∧ first ≤ position ∧ position < stop}.ncard = 1 := by
  have only : {position | Unissued log db position ∧ first ≤ position ∧ position < stop} =
      {db.participantCount} := by
    ext position
    simp only [Set.mem_ofPred_eq, Set.mem_singleton_iff, unissued_iff_of_unclaimed unclaimed]
    constructor
    · exact fun member => member.1
    · rintro rfl
      exact ⟨rfl, above, below⟩
  rw [only, Set.ncard_singleton]

theorem unissued_beyond (first : ℕ) {stop : ℕ}
    (unclaimed : (log.all fun entry => !entry.exchange.call.claimsBlock) = true)
    (beyond : stop ≤ db.participantCount) :
    {position | Unissued log db position ∧ first ≤ position ∧ position < stop}.ncard = 0 := by
  have empty : {position | Unissued log db position ∧ first ≤ position ∧ position < stop} = ∅ := by
    ext position
    simp only [Set.mem_ofPred_eq, Set.mem_empty_iff_false, iff_false,
      unissued_iff_of_unclaimed unclaimed]
    rintro ⟨rfl, -, inside⟩
    exact absurd inside (not_lt.mpr beyond)
  rw [empty, Set.ncard_empty]

end Measured

/-- **When the measurement counts people.** What the controller takes last interval's releases to be
is the number of people the cursor passed exactly when the interval has no number that nobody holds,
or, if it starts at `0`, one such number. -/
theorem releasedLast_counts_people {d : Deployment} {origin : Db} (seeded : Seeded origin) {c : Room}
    (run : RoomRun d .free origin c) (opened : c.state.Opened) :
    c.state.releasedLast =
        {position | Issued c.log c.state position ∧
          c.state.reading "last_serving_counter" ≤ position ∧
          position < c.state.servingCounter}.ncard ↔
      {position | Unissued c.log c.state position ∧
          c.state.reading "last_serving_counter" ≤ position ∧
          position < c.state.servingCounter}.ncard =
        if c.state.reading "last_serving_counter" = 0 ∧ 0 < c.state.servingCounter then 1 else 0 := by
  have whole := run.trace.issued_ncard seeded opened (c.state.reading "last_serving_counter")
    (run.trace.cursor_in_line seeded)
  have formula : c.state.releasedLast =
      c.state.servingCounter - max (c.state.reading "last_serving_counter") 1 := rfl
  rw [formula]
  split_ifs with starts
  · omega
  · omega

/-- A cohort of one that was released at once is counted as one. -/
theorem releasedLast_counts_people_sample : ∃ c : Room,
    RoomRun Sample.deployment .free Sample.origin c ∧ c.state.servingCounter = 2 ∧
    c.state.releasedLast =
      {position | Issued c.log c.state position ∧
        c.state.reading "last_serving_counter" ≤ position ∧
        position < c.state.servingCounter}.ncard := by
  obtain ⟨c, run, good⟩ := System.exists_reaches_of_run
    (show ((room Sample.deployment).run .free (.initial Sample.origin)
      (.start (.joinBatch Sample.shard [⟨"m1", "alice"⟩]) ::
        .start (.openEvent Sample.seed .ascending) :: .start (.controllerPass 100 .ascending) ::
          (Sample.commits 0 5 ++ Sample.commits 1 11 ++ Sample.commits 2 12))).any
      (fun c => decide (c.state.Opened ∧ c.state.reading "last_serving_counter" = 0 ∧
          c.state.servingCounter = 2 ∧ c.state.participantCount = 1) &&
        c.log.all fun entry => !entry.exchange.call.claimsBlock) by decide +kernel)
  simp only [Bool.and_eq_true, decide_eq_true_eq] at good
  obtain ⟨⟨opened, last, serving, size⟩, unclaimed⟩ := good
  refine ⟨c, run, serving, (releasedLast_counts_people Sample.origin_seeded run opened).mpr ?_⟩
  rw [last, serving, unissued_within unclaimed (by rw [size]; decide) (by rw [size]; decide)]
  rfl

/-- A deployment whose join bodies are the ids themselves. -/
def crowdDeployment : Deployment :=
  { Sample.deployment with decode := fun body => some ⟨body, "demo", Sample.aliceDigest.text⟩ }

/-- Ten visitors of one batch. -/
def crowd : List BatchRecord :=
  (List.range 10).map fun n => ⟨toString n, "018f3a2b-7c9d-7e1f-abcd-01234567890" ++ toString n⟩

/-- A batch of ten, the open and the first pass, at a rate of one a second. -/
def crowdSchedule : List (Action Job Choice) :=
  .start (.joinBatch Sample.shard crowd) :: .start (.openEvent Sample.seed .ascending) ::
    .start (.controllerPass 100 .ascending) ::
      (Sample.commits 0 14 ++ Sample.commits 1 11 ++ Sample.commits 2 12)

theorem crowd_run : ∃ c : Room, RoomRun crowdDeployment .free (.seeded "demo" true 1) c ∧
    c.state.Opened ∧ (c.log.all fun entry => !entry.exchange.call.claimsBlock) = true ∧
    c.state.releasedLast = 9 ∧ c.state.reading "last_serving_counter" = 0 ∧
    c.state.servingCounter = 10 ∧ c.state.participantCount = 10 := by
  obtain ⟨c, run, good⟩ := System.exists_reaches_of_run
    (show ((room crowdDeployment).run .free (.initial (.seeded "demo" true 1)) crowdSchedule).any
      (fun c => decide (c.state.Opened ∧ c.state.releasedLast = 9 ∧
          c.state.reading "last_serving_counter" = 0 ∧ c.state.servingCounter = 10 ∧
          c.state.participantCount = 10) &&
        c.log.all fun entry => !entry.exchange.call.claimsBlock) by decide +kernel)
  simp only [Bool.and_eq_true, decide_eq_true_eq] at good
  obtain ⟨⟨opened, measured, last, serving, size⟩, unclaimed⟩ := good
  exact ⟨c, run, opened, unclaimed, measured, last, serving, size⟩

/-- The first pass released ten people, and the next one measures against nine. -/
theorem releasedLast_misses_first : ∃ c : Room,
    RoomRun crowdDeployment .free (.seeded "demo" true 1) c ∧ c.state.Opened ∧
    c.state.releasedLast = 9 ∧
    {position | Issued c.log c.state position ∧
      c.state.reading "last_serving_counter" ≤ position ∧
      position < c.state.servingCounter}.ncard = 10 := by
  obtain ⟨c, run, opened, unclaimed, measured, last, serving, size⟩ := crowd_run
  have seeded := Db.seeded_seeded "demo" true 1
  refine ⟨c, run, opened, measured, ?_⟩
  have whole := run.trace.issued_ncard seeded opened (c.state.reading "last_serving_counter")
    (run.trace.cursor_in_line seeded)
  have none_lost := unissued_beyond (c.state.reading "last_serving_counter") unclaimed
    (serving.trans size.symm).le
  rw [none_lost, last, serving] at whole
  rw [last, serving]
  exact whole

end WaitingRoom
