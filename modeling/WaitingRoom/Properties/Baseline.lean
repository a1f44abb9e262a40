import WaitingRoom.Properties.Arrivals
import WaitingRoom.Protocol.Releases
import Mathlib.Algebra.Order.BigOperators.Group.Finset

/-!
# What is measured of the arrivals

A pass that lands stores the arrivals it read as the baseline of the next measurement. The read is
eventually consistent, so a landed pass can rewind the baseline, and a pass that moves the cursor
by nothing lets another one land over a baseline that it had not read. The arrivals measured by
all the passes that landed are no more than those recorded and what was rewound or overtaken
(`observed_le_recorded`).
-/

set_option autoImplicit false

namespace WaitingRoom

open Dynamo Concurrency

/-- The baseline of the next measurement. -/
abbrev Db.baseline (db : Db) : ℕ := db.reading "last_arrivals_total"

/-- An attribute of the `Counters` item holds a number. -/
def Db.storesNumber (db : Db) (name : String) (number : ℚ) : Bool :=
  decide ((db.attr name).bind AttributeValue.asN = some number)

/-- The decision of a release that landed. -/
def landedDecision (entry : RoomEntry) : Option ReleaseDecision :=
  match entry.exchange.call with
  | .updateCounters (.writeRelease decision expected) =>
      if ((entry.before.attr "serving_counter").isNone ||
            entry.before.storesNumber "serving_counter" expected) &&
          entry.after.storesNumber "serving_counter" decision.nextServingCounter &&
          entry.after.storesNumber "last_serving_counter" decision.previousServingCounter &&
          entry.after.storesNumber "last_arrivals_total" decision.arrivalsTotal &&
          entry.after.storesNumber "no_show_rate" decision.noShow.smoothedRate &&
          entry.after.storesNumber "last_open_pass_at" decision.lastOpenPassAt
      then some decision
      else none
  | _ => none

/-- The `Counters` item a pass read. -/
def itemRead (history : History) : Option Item :=
  history.findSome? fun exchange =>
    match exchange with
    | ⟨.getCounters true, .ok (some item)⟩ => some item
    | _ => none

/-- The baseline a pass read. -/
def baselineRead (history : History) : ℕ :=
  ((itemRead history).bind fun item => num item "last_arrivals_total").getD 0

/-- Add up an amount over the passes that landed. -/
def overLanded (amount : List RoomEntry → RoomEntry → ReleaseDecision → ℕ) : List RoomEntry → ℕ
  | [] => 0
  | entry :: older =>
      ((landedDecision entry).map (amount older entry)).getD 0 + overLanded amount older

/-- The arrivals a landed pass measured. -/
def observed (older : List RoomEntry) (entry : RoomEntry) (decision : ReleaseDecision) : ℕ :=
  saturatingSub decision.arrivalsTotal (baselineRead (history older entry.thread))

/-- How far a landed pass put the baseline back. -/
def rewound (_ : List RoomEntry) (entry : RoomEntry) (decision : ReleaseDecision) : ℕ :=
  saturatingSub entry.before.baseline decision.arrivalsTotal

/-- How far the baseline had moved on since a landed pass read it. -/
def overtaken (older : List RoomEntry) (entry : RoomEntry) (_ : ReleaseDecision) : ℕ :=
  saturatingSub entry.before.baseline (baselineRead (history older entry.thread))

section Baseline

variable {d : Deployment} {policy : RoomPolicy} {origin db : Db} {log older : List RoomEntry}
  {entry : RoomEntry} {decision : ReleaseDecision} {expected : ℕ}

theorem storesNumber_iff {name : String} {number : ℚ} :
    db.storesNumber name number ↔ db.attr name = some (.N number) := by
  rw [Db.storesNumber, decide_eq_true_iff]
  constructor
  · intro stored
    obtain ⟨value, found, same⟩ := Option.bind_eq_some_iff.mp stored
    cases value <;> cases same
    exact found
  · intro stored
    rw [stored]
    rfl

/-- A release has landed when its guard held and its five attributes are stored. -/
theorem landedDecision_eq_some :
    landedDecision entry = some decision ↔ ∃ expected, Landed entry decision expected := by
  constructor
  · intro found
    rw [landedDecision] at found
    split at found
    · next decision' expected call =>
        split_ifs at found with written
        obtain rfl := Option.some.inj found
        simp only [Bool.and_eq_true, Bool.or_eq_true, Option.isNone_iff_eq_none,
          storesNumber_iff] at written
        obtain ⟨⟨⟨⟨⟨guard, cursor⟩, lastServing⟩, lastArrivals⟩, noShow⟩, lastOpenPass⟩ := written
        exact ⟨expected, call, guard, cursor, lastServing, lastArrivals, noShow, lastOpenPass⟩
    · cases found
  · rintro ⟨expected, landed⟩
    rw [landedDecision, landed.call]
    refine if_pos ?_
    simp only [Bool.and_eq_true, Bool.or_eq_true, Option.isNone_iff_eq_none, storesNumber_iff]
    exact ⟨⟨⟨⟨⟨landed.guard, landed.cursor⟩, landed.lastServing⟩, landed.lastArrivals⟩,
      landed.noShow⟩, landed.lastOpenPass⟩

/-- A pass read one item. -/
theorem PassReads.itemRead_eq {history : History} {item : Item} {arrivals : Shard → ℕ}
    (reads : PassReads history item arrivals) : itemRead history = some item := by
  have found : (itemRead history).isSome := by
    rw [itemRead, List.findSome?_isSome_iff]
    exact ⟨answered (.getCounters true) (.ok (some item)), reads.counters, rfl⟩
  obtain ⟨other, same⟩ := Option.isSome_iff_exists.mp found
  obtain ⟨exchange, member, matched⟩ := List.exists_of_findSome?_eq_some same
  rcases reads.others exchange member with rfl | ⟨shard, call⟩
  · rw [same]
    exact matched.symm
  · obtain ⟨_, answer⟩ := exchange
    cases call
    cases matched

/-- What counts as measured is what the pass computed with. -/
theorem PassReads.observed_eq {item : Item} {arrivals : Shard → ℕ} {now : ℕ}
    (reads : PassReads (history older entry.thread) item arrivals)
    (computed : decision =
      computeRelease f64 (controllerStateOf item arrivals).inputs (storedNoShow item) now) :
    observed older entry decision = (controllerStateOf item arrivals).inputs.observedArrivals := by
  rw [observed, baselineRead, reads.itemRead_eq, computed]
  rfl

/-- What a landed pass leaves as the baseline. -/
theorem Logged.baseline_of_landed (logged : Logged d policy origin older entry)
    (landed : Landed entry decision expected) : entry.after.baseline = decision.arrivalsTotal := by
  obtain ⟨now, order, item, arrivals, -, -, -, rfl, -, -, -⟩ := logged.pass_reads landed
  exact reading_of_attr landed.lastArrivals (sumArrivals_lt arrivals)

theorem Logged.baseline_unchanged (logged : Logged d policy origin older entry)
    (none : landedDecision entry = none) : entry.after.baseline = entry.before.baseline := by
  rcases logged.release_cases with same | ⟨decision, expected, landed⟩
  · exact reading_congr (same _ (by simp [CountersUpdate.releaseAttrs]))
  · rw [landedDecision_eq_some.mpr ⟨expected, landed⟩] at none
    cases none

/-- **The measurements telescope**, but for what was rewound and overtaken. -/
theorem RoomTrace.observed_le (trace : RoomTrace d policy origin log db) :
    overLanded observed log + origin.baseline ≤
      db.baseline + overLanded rewound log + overLanded overtaken log := by
  refine trace.rule (motive := fun log db => overLanded observed log + origin.baseline ≤
    db.baseline + overLanded rewound log + overLanded overtaken log) ?_ ?_
  · simp only [overLanded]
    omega
  · intro entry older logged before
    have earlier := before [] older _ rfl logged.earlier
    simp only [overLanded]
    cases found : landedDecision entry with
    | none =>
        rw [logged.baseline_unchanged found]
        simpa using earlier
    | some decision =>
        obtain ⟨expected, landed⟩ := landedDecision_eq_some.mp found
        rw [logged.baseline_of_landed landed]
        simp only [Option.map_some, Option.getD_some, observed, rewound, overtaken, saturatingSub]
        omega

/-! ## The arrivals that were read -/

/-- Every arrivals item names its shard. -/
def ArrivalsStamped (db : Db) : Prop :=
  ∀ shard item, db.arrivals shard = some item → item shardIndexAttr = some (.N shard.val)

theorem perform_addArrivals_index (shard : Shard) (db : Db) :
    (perform (.addArrivals shard) db).2 = db ∨ ∃ item : Item,
      item shardIndexAttr = some (.N shard.val) ∧
      (perform (.addArrivals shard) db).2.arrivals =
        Function.update db.arrivals shard (some item) := by
  cases outcome : updateItem (db.arrivals shard) .always (shardClauses shard 1) with
  | updated item =>
      refine .inr ⟨item, updateItem_set [] outcome ?_, by simp only [perform, outcome]⟩
      simp [Clause.attr, shardIndexAttr, shardCountAttr]
  | conditionFailed => exact .inl (by simp only [perform, outcome])
  | rejected => exact .inl (by simp only [perform, outcome])

theorem RoomTrace.arrivalsStamped (seeded : Seeded origin)
    (trace : RoomTrace d policy origin log db) : ArrivalsStamped db := by
  refine trace.invariant ArrivalsStamped ?_ fun entry older logged before shard item found => ?_
  · intro shard item found
    rw [seeded.arrivals shard] at found
    cases found
  have earlier := before _ ⟨[], older, rfl, logged.earlier⟩ shard item
  rcases logged.effect.arrivals_cases with same | ⟨other, call⟩
  · exact earlier (same ▸ found)
  obtain ⟨choice, -, responds⟩ := logged.responds
  have state := respond_state responds
  rw [call] at state
  rcases state with same | same
  · exact earlier (same ▸ found)
  rcases perform_addArrivals_index other entry.before with unchanged | ⟨item', index, arrivals⟩
  · exact earlier (unchanged ▸ same ▸ found)
  rw [same, arrivals] at found
  by_cases here : shard = other
  · subst here
    rw [Function.update_self] at found
    obtain rfl := Option.some.inj found
    exact index
  · rw [Function.update_of_ne here] at found
    exact earlier found

/-- The counts of a fold are the counts of its items. -/
theorem arrivalsFromShardItems_cases {items : List Item} {start arrivals : Shard → ℕ}
    (folded : arrivalsFromShardItems items start = .ok arrivals) (shard : Shard) :
    arrivals shard = start shard ∨ ∃ item ∈ items, shardIndexOf item = some shard ∧
      shardCountOf item = some (arrivals shard) := by
  induction items generalizing start with
  | nil =>
      rw [Except.ok.inj folded]
      exact .inl rfl
  | cons item items ih =>
      have later : (∃ other ∈ items, shardIndexOf other = some shard ∧
          shardCountOf other = some (arrivals shard)) →
          ∃ other ∈ item :: items, shardIndexOf other = some shard ∧
            shardCountOf other = some (arrivals shard) := by
        rintro ⟨other, member, found⟩
        exact ⟨other, List.mem_cons_of_mem _ member, found⟩
      simp only [arrivalsFromShardItems] at folded
      split at folded
      · exact (ih folded).imp id later
      · next index stamped =>
          split at folded
          · cases folded
          · next count counted =>
              rcases ih folded with same | found
              · by_cases here : shard = index
                · subst here
                  rw [Function.update_self] at same
                  exact .inr ⟨item, List.mem_cons_self, stamped, same ▸ counted⟩
                · exact .inl (same.trans (Function.update_of_ne here _ _))
              · exact .inr (later found)

/-- A pass reads no more arrivals of a shard than there are. -/
theorem RoomTrace.arrivals_read_le (seeded : Seeded origin)
    (trace : RoomTrace d policy origin log db) {thread : ℕ} {item : Item} {arrivals : Shard → ℕ}
    (reads : PassReads (history log thread) item arrivals) (shard : Shard) :
    (arrivals shard : ℚ) ≤ numberOf (db.arrivals shard) shardCountAttr := by
  have bounded : 0 ≤ numberOf (db.arrivals shard) shardCountAttr := by
    have grown := trace.origin_grows.arrivals shard
    rw [seeded.arrivals shard] at grown
    exact grown
  obtain ⟨items, folded, from_read⟩ := reads.folded
  rcases arrivalsFromShardItems_cases folded shard with none | ⟨read, member, index, counted⟩
  · rw [none]
    exact_mod_cast bounded
  obtain ⟨other, inHistory⟩ := from_read read member
  obtain ⟨old, held, performed⟩ := trace.performed inHistory nofun
  have grown := (held.grows trace).arrivals other
  obtain ⟨newer, oldest, -, earlier⟩ := held
  have stored : old.arrivals other = some read := Except.ok.inj performed
  have inside : other.val < u64Bound := other.isLt.trans (by decide)
  -- the item names the shard it was read from
  have same : other = shard := by
    rw [shardIndexOf, num_of_natCast (earlier.arrivalsStamped seeded other read stored) inside,
      Option.bind_some, Shard.new, dif_pos other.isLt] at index
    exact Option.some.inj index
  subst same
  rwa [stored, numberOf_of_num counted] at grown

theorem sumArrivals_le (arrivals : Shard → ℕ) : sumArrivals arrivals ≤ ∑ shard, arrivals shard := by
  have fold : ∀ (list : List Shard) (total : ℕ),
      list.foldl (fun total shard => saturatingAdd total (arrivals shard)) total ≤
        total + (list.map arrivals).sum := by
    intro list
    induction list with
    | nil =>
        intro total
        exact le_rfl
    | cons shard list ih =>
        intro total
        rw [List.foldl_cons, List.map_cons, List.sum_cons]
        have step := saturatingAdd_le total (arrivals shard)
        have rest := ih (saturatingAdd total (arrivals shard))
        omega
  have total := fold (List.finRange shards) 0
  rwa [Nat.zero_add, ← List.ofFn_eq_map, List.sum_ofFn] at total

/-- The baseline is the one at the start or no more than the arrivals recorded. -/
theorem RoomTrace.baseline_le (seeded : Seeded origin) (trace : RoomTrace d policy origin log db) :
    db.baseline = origin.baseline ∨ (db.baseline : ℚ) ≤ db.arrived := by
  refine trace.rule (motive := fun _ db => db.baseline = origin.baseline ∨
    (db.baseline : ℚ) ≤ db.arrived) (.inl rfl) fun entry older logged before => ?_
  have grown : entry.before.arrived ≤ entry.after.arrived :=
    Finset.sum_le_sum fun shard _ => logged.grows.arrivals shard
  cases found : landedDecision entry with
  | none =>
      rw [logged.baseline_unchanged found]
      exact (before [] older _ rfl logged.earlier).imp id fun bounded => bounded.trans grown
  | some decision =>
      obtain ⟨expected, landed⟩ := landedDecision_eq_some.mp found
      obtain ⟨now, order, item, arrivals, -, -, reads, computed, -⟩ := logged.pass_reads landed
      refine .inr (le_trans ?_ grown)
      rw [logged.baseline_of_landed landed, computed]
      calc ((sumArrivals arrivals : ℕ) : ℚ)
          ≤ ((∑ shard, arrivals shard : ℕ) : ℚ) := Nat.cast_le.mpr (sumArrivals_le arrivals)
        _ = ∑ shard, (arrivals shard : ℚ) := Nat.cast_sum _ _
        _ ≤ entry.before.arrived :=
          Finset.sum_le_sum fun shard _ => logged.earlier.arrivals_read_le seeded reads shard

end Baseline

/-- **What is measured of the arrivals.** All the arrivals that landed passes measured are no more
than the arrivals recorded, how far these passes put the baseline back and how far it had moved on
since they read it. -/
theorem observed_le_recorded {d : Deployment} {origin : Db} (seeded : Seeded origin) {c : Room}
    (run : RoomRun d .free origin c) :
    (overLanded observed c.log : ℚ) ≤
        c.state.arrived + overLanded rewound c.log + overLanded overtaken c.log ∧
      ∀ newer entry older, c.log = newer ++ entry :: older →
        ∀ decision expected, Landed entry decision expected →
          ∃ now order item arrivals, entry.job = .controllerPass now order ∧
            PassReads (history older entry.thread) item arrivals ∧
            observed older entry decision =
              (controllerStateOf item arrivals).inputs.observedArrivals := by
  constructor
  · have telescoped : ((overLanded observed c.log + origin.baseline : ℕ) : ℚ) ≤
        (c.state.baseline + overLanded rewound c.log + overLanded overtaken c.log : ℕ) :=
      Nat.cast_le.mpr run.trace.observed_le
    push_cast at telescoped
    have recorded : 0 ≤ c.state.arrived := by
      refine Finset.sum_nonneg fun shard _ => ?_
      have grown := run.trace.origin_grows.arrivals shard
      rw [seeded.arrivals shard] at grown
      exact grown
    rcases run.trace.baseline_le seeded with same | bounded
    · rw [same] at telescoped
      linarith
    · linarith
  · intro newer entry older whole decision expected landed
    have trace := run.trace
    rw [whole] at trace
    obtain ⟨now, order, item, arrivals, -, job, reads, computed, -⟩ :=
      trace.logged.pass_reads landed
    exact ⟨now, order, item, arrivals, job, reads, reads.observed_eq computed⟩

/-- A visitor is admitted between the first pass and the second. -/
def admissionSchedule : List (Action Job Choice) :=
  [.start (.joinBatch Sample.shard [⟨"m1", "alice"⟩]), .start (.openEvent Sample.seed .ascending),
    .start (.controllerPass 100 .ascending),
    .start (.generateToken Sample.alice Sample.aliceSecret none 105 (some Sample.shard)),
    .start (.controllerPass 110 .ascending), .start (.controllerPass 120 .ascending),
    .start (.controllerPass 130 .ascending)] ++
  Sample.commits 0 5 ++ Sample.commits 1 11 ++ Sample.commits 2 12 ++ Sample.commits 3 5 ++
    Sample.commits 4 12

/-- One arrival is measured once. -/
theorem observed_le_recorded_sample : ∃ c : Room,
    RoomRun Sample.deployment .free Sample.origin c ∧ overLanded observed c.log = 1 ∧
    (overLanded observed c.log : ℚ) ≤
      c.state.arrived + overLanded rewound c.log + overLanded overtaken c.log := by
  obtain ⟨c, run, good⟩ := System.exists_reaches_of_run
    (show ((room Sample.deployment).run .free (.initial Sample.origin) admissionSchedule).any
      (fun c => decide (overLanded observed c.log = 1)) by decide +kernel)
  exact ⟨c, run, of_decide_eq_true good, (observed_le_recorded Sample.origin_seeded run).1⟩

/-- The third pass reads the arrivals of before the admission, and the fourth measures the one
arrival that the second had measured. -/
theorem arrival_observed_twice : ∃ c : Room,
    RoomRun Sample.deployment .free Sample.origin c ∧ c.state.arrived = 1 ∧
    overLanded observed c.log = 2 := by
  obtain ⟨c, run, good⟩ := System.exists_reaches_of_run
    (show ((room Sample.deployment).run .free (.initial Sample.origin)
      (admissionSchedule ++ Sample.commits 5 1 ++ [.advance 5 (.stale 13)] ++ Sample.commits 5 10 ++
        Sample.commits 6 12)).any
      (fun c => decide (c.state.arrived = 1 ∧ overLanded observed c.log = 2)) by decide +kernel)
  obtain ⟨arrived, twice⟩ := of_decide_eq_true good
  exact ⟨c, run, arrived, twice⟩

end WaitingRoom
