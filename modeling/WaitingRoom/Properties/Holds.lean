import WaitingRoom.Concurrency.Blocks
import WaitingRoom.Protocol.Releases

/-!
# An operator's hold is not measured

Passes run one at a time, at least an interval apart. A pass that is held writes nothing, so the
stored time of the last open pass is the one thing that tells a hold from a quiet interval. The
first open pass after a hold finds it stale: it carries the smoothed rate and releases no more
than the target, and the next one measures against what that pass wrote (`hold_not_measured`).
-/

set_option autoImplicit false

namespace WaitingRoom

open Dynamo Concurrency

/-- A pass that returned, with its clock reading. -/
def Passed (c : Room) (thread now : ℕ) (result : PassOutcome) : Prop :=
  ∃ order, c.result thread = some (.controllerPass now order, .pass (.ok result))

/-- An open pass. -/
def Ran (c : Room) (thread now : ℕ) : Prop := ∃ released, Passed c thread now (.ran released)

/-- A pass that was held, or found the event in another phase. -/
def WasHeld (c : Room) (thread now : ℕ) : Prop :=
  (∃ control, Passed c thread now (.held control)) ∨
    ∃ phase, Passed c thread now (.notActive phase)

/-- Every call of one thread is older than every call of another. -/
def RunsBefore (log : List RoomEntry) (first second : ℕ) : Prop :=
  ∀ newer entry older, log = newer ++ entry :: older → entry.thread = first →
    ∀ earlier ∈ older, earlier.thread ≠ second

/-- The passes run one at a time and at least an interval apart, and every release lands. -/
structure Cadence (c : Room) : Prop where
  apart : ∀ i j now now' order order', i ≠ j → c.jobs[i]? = some (.controllerPass now order) →
    c.jobs[j]? = some (.controllerPass now' order') →
      (RunsBefore c.log i j ∧ now + intervalSecs ≤ now') ∨
        (RunsBefore c.log j i ∧ now' + intervalSecs ≤ now)
  landing : ∀ entry ∈ c.log, ∀ decision expected,
    entry.exchange.call = .updateCounters (.writeRelease decision expected) →
      ∃ item, entry.exchange =
        answered (.updateCounters (.writeRelease decision expected)) (.ok (some item))

/-- What an open pass computed, from what it read, and wrote. -/
structure Computes (log : List RoomEntry) (thread now : ℕ) (inputs : ReleaseInputs)
    (prev : Option NoShowState) (decision : ReleaseDecision) : Prop where
  reads : ∃ item arrivals, PassReads (history log thread).tail item arrivals ∧
    inputs = (controllerStateOf item arrivals).inputs ∧ prev = storedNoShow item
  computed : decision = computeRelease f64 inputs prev now
  wrote : ∃ expected item, (history log thread).head? =
    some (answered (.updateCounters (.writeRelease decision expected)) (.ok (some item)))

section Holds

variable {d : Deployment} {policy : RoomPolicy} {origin : Db} {c : Room} {thread now : ℕ}

theorem Passed.job {result : PassOutcome} (passed : Passed c thread now result) :
    ∃ order, c.jobs[thread]? = some (.controllerPass now order) := by
  obtain ⟨order, returned⟩ := passed
  refine ⟨order, ?_⟩
  rw [Config.jobs, List.getElem?_map, Config.result_eq_some.mp returned]
  rfl

theorem Ran.job (ran : Ran c thread now) :
    ∃ order, c.jobs[thread]? = some (.controllerPass now order) := by
  obtain ⟨released, passed⟩ := ran
  exact passed.job

theorem WasHeld.job (held : WasHeld c thread now) :
    ∃ order, c.jobs[thread]? = some (.controllerPass now order) := by
  rcases held with ⟨control, passed⟩ | ⟨phase, passed⟩
  · exact passed.job
  · exact passed.job

/-- Clock readings order the passes, and keep them an interval apart. -/
theorem Cadence.ordered (cadence : Cadence c) {i j now' : ℕ} {order order' : ShardOrder}
    (first : c.jobs[i]? = some (.controllerPass now order))
    (second : c.jobs[j]? = some (.controllerPass now' order')) (later : now < now') :
    RunsBefore c.log i j ∧ now + intervalSecs ≤ now' := by
  have distinct : i ≠ j := by
    rintro rfl
    rw [first] at second
    cases second
    exact absurd later (lt_irrefl now)
  rcases cadence.apart i j now now' order order' distinct first second with before | ⟨-, after⟩
  · exact before
  · omega

/-- An open pass has a release that landed, computed from what it read. -/
theorem RoomRun.computes (run : RoomRun d policy origin c) (cadence : Cadence c)
    (ran : Ran c thread now) : ∃ inputs prev decision, Computes c.log thread now inputs prev decision := by
  obtain ⟨released, order, returned⟩ := ran
  obtain ⟨result, same, report⟩ := run.report (Config.result_eq_some.mp returned)
  obtain rfl := Outcome.pass.inj same
  obtain ⟨decision, expected, attributes, earlier, -, calls, -⟩ := report
  obtain ⟨newer, entry, older, whole, rfl, exchange, -, rfl⟩ :=
    exists_split_of_history (calls.trans (List.nil_append _).symm)
  have trace := run.trace
  rw [whole] at trace
  obtain ⟨item, landedExchange⟩ := cadence.landing entry (by rw [whole]; simp) decision expected
    (by rw [exchange])
  have landed := trace.logged.landed_of_answer landedExchange
  obtain ⟨time, order', read, arrivals, -, job, reads, computed, -, -, -⟩ :=
    trace.logged.pass_reads landed
  -- the job of the entry is the one that returned
  have jobs := System.Reaches.job_of_entry run (show entry ∈ c.log by rw [whole]; simp)
  obtain ⟨order'', started⟩ := Passed.job ⟨order, returned⟩
  rw [job, started] at jobs
  cases jobs
  refine ⟨_, _, decision, ⟨read, arrivals, ?_, rfl, rfl⟩, computed, expected, item, ?_⟩
  · rw [calls]
    exact reads
  · rw [calls, ← exchange, landedExchange]
    rfl

/-- The release of an open pass is its last call. -/
theorem Computes.last {inputs : ReleaseInputs} {prev : Option NoShowState}
    {decision : ReleaseDecision} (computes : Computes c.log thread now inputs prev decision)
    {newer older : List RoomEntry} {entry : RoomEntry} (whole : c.log = newer ++ entry :: older)
    (mine : entry.thread = thread) (release : entry.exchange.call.isRelease) :
    history newer thread = [] ∧ history older thread = (history c.log thread).tail := by
  subst mine
  obtain ⟨item, arrivals, reads, -, -⟩ := computes.reads
  have nothing := reads.releasesNothing
  rw [whole, history_append, history_cons_self] at nothing ⊢
  cases after : history newer entry.thread with
  | nil => exact ⟨rfl, rfl⟩
  | cons first rest =>
      rw [after] at nothing
      have quiet := nothing entry.exchange (List.mem_append_right rest List.mem_cons_self)
      rw [release] at quiet
      cases quiet

/-- Whoever landed a release ran. -/
theorem RoomRun.ran_of_landed (run : RoomRun d policy origin c) (cadence : Cadence c)
    {entry : RoomEntry} (member : entry ∈ c.log) {decision : ReleaseDecision} {expected : ℕ}
    (landed : Landed entry decision expected) : ∃ now, Ran c entry.thread now := by
  obtain ⟨newer, older, -, logged⟩ := run.trace.logged_of_mem member
  obtain ⟨now, order, -, -, -, job, -⟩ := logged.pass_reads landed
  have jobs := System.Reaches.job_of_entry run member
  rw [job, Config.jobs, List.getElem?_map, Option.map_eq_some_iff] at jobs
  obtain ⟨⟨_, program⟩, started, rfl⟩ := jobs
  have inHistory := mem_history_of_entry member
  have release : entry.exchange.call.isRelease := Call.isRelease_iff.mpr ⟨_, _, landed.call⟩
  have absent : ∀ older : History, ReleasesNothing older → entry.exchange ∈ older → False := by
    intro older nothing inside
    have quiet := nothing _ inside
    rw [release] at quiet
    cases quiet
  cases program with
  | call request next =>
      have running := (System.Reaches.obeys run (program_releases_last d)).1 _ _ _ started
      exact (absent _ ((obeys_call.mp running).1.2 now order rfl) inHistory).elim
  | done outcome =>
      obtain ⟨result, rfl, report⟩ := run.report started
      rcases result with error | (phase | control | released)
      · obtain ⟨earlier, nothing, same | ⟨_, _, failed, calls⟩⟩ := report
        · exact (absent earlier nothing (same ▸ inHistory)).elim
        · rw [calls] at inHistory
          rcases List.mem_cons.mp inHistory with same | inside
          · obtain ⟨item, answer⟩ := cadence.landing entry member decision expected landed.call
            rw [same] at answer
            cases answer
          · exact (absent earlier nothing inside).elim
      · exact (absent _ report inHistory).elim
      · exact (absent _ report inHistory).elim
      · exact ⟨now, released, order, Config.result_eq_some.mpr started⟩

/-- What a release left stays until the next one. -/
theorem RoomTrace.attr_unchanged {newer between older : List RoomEntry} {entry later : RoomEntry}
    {db : Db} (trace : RoomTrace d policy origin (newer ++ later :: (between ++ entry :: older)) db)
    (quiet : ∀ middle ∈ between, ∀ decision expected, ¬ Landed middle decision expected)
    {name : String} (releaseAttr : name ∈ CountersUpdate.releaseAttrs) :
    later.before.attr name = entry.after.attr name := by
  have upTo := trace.logged.earlier
  refine (Trace.relates (fun old new : Db => new.attr name = old.attr name) (fun _ => rfl) ?_
    upTo.at_entry upTo fun middle member => ?_)
  · intro a b c first second
    exact second.trans first
  · obtain ⟨_, _, -, logged⟩ := upTo.logged_of_mem (List.mem_append_left _ member)
    rcases logged.release_cases with same | ⟨decision, expected, landed⟩
    · exact same name releaseAttr
    · exact absurd landed (quiet middle member decision expected)

/-- The rate an open pass writes is one that is read back. -/
theorem Computes.rate {inputs : ReleaseInputs} {prev : Option NoShowState}
    {decision : ReleaseDecision} (computes : Computes c.log thread now inputs prev decision) :
    (0 ≤ decision.noShow.smoothedRate ∧ decision.noShow.smoothedRate ≤ 1) ∧
      f64.Represents decision.noShow.smoothedRate := by
  obtain ⟨item, arrivals, -, -, rfl⟩ := computes.reads
  rw [computes.computed]
  exact ⟨computeRelease_noShow_bounds inputs now fun _ stored => storedNoShow_bounds stored,
    computeRelease_noShow_represents inputs now fun _ stored => storedNoShow_represents stored⟩

/-- Between the release of an open pass and the reads of the next one, nothing is released. -/
theorem RoomRun.quiet_between (run : RoomRun d policy origin c) (cadence : Cadence c) {p q now' : ℕ}
    (ran : Ran c p now) (ran' : Ran c q now')
    (successive : ∀ thread time, Ran c thread time → ¬ (now < time ∧ time < now'))
    {inputs inputs' : ReleaseInputs} {prev prev' : Option NoShowState}
    {decision decision' : ReleaseDecision} (computes : Computes c.log p now inputs prev decision)
    (computes' : Computes c.log q now' inputs' prev' decision') {newer between older : List RoomEntry}
    {read entry : RoomEntry} (whole : c.log = newer ++ read :: (between ++ entry :: older))
    (mine : entry.thread = p) (mine' : read.thread = q) (release : entry.exchange.call.isRelease) :
    ∀ middle ∈ between, ∀ decision expected, ¬ Landed middle decision expected := by
  intro middle member other expected landed
  obtain ⟨first, last, rfl⟩ := List.append_of_mem member
  have atMiddle : c.log = (newer ++ read :: first) ++ middle :: (last ++ entry :: older) := by
    rw [whole]
    simp
  have atEntry : c.log = (newer ++ read :: (first ++ middle :: last)) ++ entry :: older := by
    rw [whole]
    simp
  obtain ⟨time, ranMiddle⟩ := run.ran_of_landed cadence (by rw [atMiddle]; simp) landed
  obtain ⟨order, job⟩ := ran.job
  obtain ⟨order', job'⟩ := ran'.job
  obtain ⟨order'', job''⟩ := ranMiddle.job
  -- neither of the two passes releases there
  have notFirst : middle.thread ≠ p := by
    intro same
    have none := (computes.last atEntry mine release).1
    have there : middle.exchange ∈ history (newer ++ read :: (first ++ middle :: last)) p :=
      mem_history.mpr ⟨middle, by simp, same, rfl⟩
    rw [none] at there
    cases there
  have notSecond : middle.thread ≠ q := by
    intro same
    have none := (computes'.last atMiddle same (Call.isRelease_iff.mpr ⟨_, _, landed.call⟩)).1
    have there : read.exchange ∈ history (newer ++ read :: first) q :=
      mem_history.mpr ⟨read, by simp, mine', rfl⟩
    rw [none] at there
    cases there
  -- so it is of a third one, and that one runs between the two
  rcases cadence.apart _ _ _ _ _ _ notFirst job'' job with ⟨early, -⟩ | ⟨-, afterFirst⟩
  · exact early _ middle _ atMiddle rfl entry (by simp) mine
  rcases cadence.apart _ _ _ _ _ _ notSecond job'' job' with ⟨-, beforeSecond⟩ | ⟨late, -⟩
  · have gap : 0 < intervalSecs := by decide
    exact successive _ time ranMiddle ⟨by omega, by omega⟩
  · exact late newer read _ whole mine' middle (by simp) rfl

/-- **What an open pass measures against is what the open pass before it wrote.** -/
theorem RoomRun.carries (run : RoomRun d policy origin c) (cadence : Cadence c) {p q now' : ℕ}
    (ran : Ran c p now) (ran' : Ran c q now') (later : now < now')
    (successive : ∀ thread time, Ran c thread time → ¬ (now < time ∧ time < now'))
    {inputs inputs' : ReleaseInputs} {prev prev' : Option NoShowState}
    {decision decision' : ReleaseDecision} (computes : Computes c.log p now inputs prev decision)
    (computes' : Computes c.log q now' inputs' prev' decision') :
    inputs'.lastServingCounter = decision.previousServingCounter ∧
      inputs'.lastArrivalsTotal = decision.arrivalsTotal ∧
      inputs'.servingCounter = decision.nextServingCounter ∧ prev' = some decision.noShow ∧
      inputs'.lastOpenPassAt ≤ now := by
  obtain ⟨order, job⟩ := ran.job
  obtain ⟨order', job'⟩ := ran'.job
  obtain ⟨before, -⟩ := cadence.ordered job job' later
  obtain ⟨expected, written, head⟩ := computes.wrote
  obtain ⟨item, arrivals, reads, same, same'⟩ := computes'.reads
  -- the release of the first pass, and the read of the second
  obtain ⟨entry, inLog, mine, exchange⟩ := mem_history.mp (List.mem_of_mem_head? head)
  obtain ⟨read, inLog', mine', exchange'⟩ := mem_history.mp (List.mem_of_mem_tail reads.counters)
  have release : entry.exchange.call.isRelease := by rw [exchange]; rfl
  have differ : read ≠ entry := by
    rintro rfl
    rw [exchange] at exchange'
    cases exchange'
  rcases exists_split_of_ne inLog' inLog differ with ⟨newer, older, whole, below⟩ |
    ⟨newer, older, whole, below⟩
  swap
  · exact absurd mine' (before newer entry older whole mine read below)
  obtain ⟨between, oldest, rfl⟩ := List.append_of_mem below
  have quiet := run.quiet_between cadence ran ran' successive computes computes' whole mine mine' release
  have trace := run.trace
  rw [whole] at trace
  have landed := trace.logged.earlier.logged.landed_of_answer exchange
  have found : read.before.counters = some item :=
    (Except.ok.inj (trace.logged.committed_answer exchange' rfl nofun)).symm
  have stored : ∀ name ∈ CountersUpdate.releaseAttrs, item name = entry.after.attr name := by
    intro name member
    rw [← trace.attr_unchanged quiet member, Db.attr, found, Option.getD_some]
  have bounds : decision.previousServingCounter < u64Bound ∧ decision.arrivalsTotal < u64Bound ∧
      decision.nextServingCounter < u64Bound := by
    obtain ⟨item, arrivals, -, rfl, rfl⟩ := computes.reads
    rw [computes.computed]
    exact ⟨controllerStateOf_serving_lt item arrivals, sumArrivals_lt arrivals,
      released_lt item arrivals _ now⟩
  have number : ∀ {name n}, name ∈ CountersUpdate.releaseAttrs → n < u64Bound →
      entry.after.attr name = some (.N (n : ℕ)) → (num item name).getD 0 = n := by
    intro name n member inside attr
    rw [num_of_natCast ((stored name member).trans attr) inside, Option.getD_some]
  refine ⟨?_, ?_, ?_, ?_, ?_⟩
  · rw [same]
    exact number (by simp [CountersUpdate.releaseAttrs]) bounds.1 landed.lastServing
  · rw [same]
    exact number (by simp [CountersUpdate.releaseAttrs]) bounds.2.1 landed.lastArrivals
  · rw [same]
    exact number (by simp [CountersUpdate.releaseAttrs]) bounds.2.2 landed.cursor
  · rw [same', storedNoShow_of_N ((stored _ (by simp [CountersUpdate.releaseAttrs])).trans
      landed.noShow) computes.rate.1 computes.rate.2]
  · rw [same]
    have at_ : decision.lastOpenPassAt = now := by rw [computes.computed]; rfl
    refine reading_le ?_
    rw [stored _ (by simp [CountersUpdate.releaseAttrs]), landed.lastOpenPass, at_]

/-- An open pass that finds the open pass before it stale carries its rate, and releases no more
than the target. -/
theorem Computes.unmeasured {inputs : ReleaseInputs} {state : NoShowState}
    {decision : ReleaseDecision}
    (computes : Computes c.log thread now inputs (some state) decision)
    (storable : ¬ (0 < state.smoothedRate ∧ state.smoothedRate < f64.round ddbNumberMinPositive))
    (stale : inputs.PriorOpenPassIsStale now) :
    decision.noShow = state ∧ decision.release ≤ inputs.targetRate * intervalSecs := by
  have measured : measure f64 inputs (some state) now =
      (targetReleasePerInterval inputs.targetRate, state.smoothedRate) :=
    measure_of_unmeasurable (.inr stale)
  rw [computes.computed]
  constructor
  · simp only [computeRelease, measured, if_neg storable]
  · refine (computeRelease_le f64 inputs (some state) now).trans ?_
    rw [measured]
    exact min_le_left _ _

end Holds

/-- **A hold is not measured.** Between two successive open passes some pass was held or found
the event in another phase. Then the second one carries the rate the first one wrote and releases
no more than the target, and the next open pass that follows before it is stale measures against
the cursor and the arrivals that the second one wrote. -/
theorem hold_not_measured {d : Deployment} {origin : Db} {c : Room} (run : RoomRun d .free origin c)
    (cadence : Cadence c) {first hold resume now₁ nowₕ now₂ : ℕ} (ran₁ : Ran c first now₁)
    (held : WasHeld c hold nowₕ) (ran₂ : Ran c resume now₂) (after : now₁ < nowₕ)
    (before : nowₕ < now₂)
    (successive : ∀ thread now, Ran c thread now → ¬ (now₁ < now ∧ now < now₂)) :
    ∃ inputs₁ prev₁ decision₁ inputs₂ prev₂ decision₂,
      Computes c.log first now₁ inputs₁ prev₁ decision₁ ∧
      Computes c.log resume now₂ inputs₂ prev₂ decision₂ ∧
      decision₂.noShow = decision₁.noShow ∧
      decision₂.release ≤ inputs₂.targetRate * intervalSecs ∧
      ∀ next now₃, Ran c next now₃ → now₂ < now₃ → now₃ < now₂ + staleOpenPassSecs →
        ∃ inputs₃ prev₃ decision₃, Computes c.log next now₃ inputs₃ prev₃ decision₃ ∧
          inputs₃.lastServingCounter = decision₂.previousServingCounter ∧
          inputs₃.servingCounter = decision₂.nextServingCounter ∧
          inputs₃.lastArrivalsTotal = decision₂.arrivalsTotal := by
  obtain ⟨inputs₁, prev₁, decision₁, computes₁⟩ := run.computes cadence ran₁
  obtain ⟨inputs₂, prev₂, decision₂, computes₂⟩ := run.computes cadence ran₂
  refine ⟨inputs₁, prev₁, decision₁, inputs₂, prev₂, decision₂, computes₁, computes₂, ?_⟩
  obtain ⟨order₁, job₁⟩ := ran₁.job
  obtain ⟨orderₕ, jobₕ⟩ := held.job
  obtain ⟨order₂, job₂⟩ := ran₂.job
  obtain ⟨-, -, -, rfl, lastOpenPass⟩ :=
    run.carries cadence ran₁ ran₂ (after.trans before) successive computes₁ computes₂
  -- a pass in between keeps the two open passes two intervals apart
  have stale : inputs₂.PriorOpenPassIsStale now₂ := by
    have gap₁ := (cadence.ordered job₁ jobₕ after).2
    have gap₂ := (cadence.ordered jobₕ job₂ before).2
    simp only [ReleaseInputs.PriorOpenPassIsStale, staleOpenPassSecs, saturatingSub]
    omega
  have storable : ¬ (0 < decision₁.noShow.smoothedRate ∧
      decision₁.noShow.smoothedRate < f64.round ddbNumberMinPositive) := by
    rw [computes₁.computed]
    exact computeRelease_noShow_storable inputs₁ prev₁ now₁
  obtain ⟨carried, bounded⟩ := computes₂.unmeasured storable stale
  refine ⟨carried, bounded, ?_⟩
  intro next now₃ ran₃ later soon
  obtain ⟨inputs₃, prev₃, decision₃, computes₃⟩ := run.computes cadence ran₃
  have adjacent : ∀ thread now, Ran c thread now → ¬ (now₂ < now ∧ now < now₃) := by
    rintro thread now ran ⟨early, late⟩
    obtain ⟨order, job⟩ := ran.job
    obtain ⟨order₃, job₃⟩ := ran₃.job
    have gap₂ := (cadence.ordered job₂ job early).2
    have gap₃ := (cadence.ordered job job₃ late).2
    rw [staleOpenPassSecs] at soon
    omega
  obtain ⟨serving, arrivals, cursor, -, -⟩ :=
    run.carries cadence ran₂ ran₃ later adjacent computes₂ computes₃
  exact ⟨inputs₃, prev₃, decision₃, computes₃, serving, cursor, arrivals⟩

/-! ## A sample run -/

/-- The threads of a log in the order of their indices run one before the other. -/
theorem runsBefore_of_sorted {log : List RoomEntry} {i j : ℕ}
    (sorted : (log.map Entry.thread).Pairwise (· ≥ ·)) (before : i < j) : RunsBefore log i j := by
  rintro newer entry older rfl rfl earlier member rfl
  rw [List.map_append, List.map_cons, List.pairwise_append] at sorted
  exact absurd ((List.pairwise_cons.mp sorted.2.1).1 _ (List.mem_map_of_mem member))
    (not_le.mpr before)

/-- An edge whose store never fails. -/
def willingEdge : Oracle Edge.Stores
  | _, .describe => .ok "e0"
  | _, .getKey => .ok ""
  | _, .putKey _ _ => .ok ()
  | _, .getItem | _, .updateItem _ => .error validationError

/-- A batch, the open, an open pass, a fail-open, a held pass, a recover and two more open passes. -/
def holdSchedule : List (Action Job Choice) :=
  [.start (.joinBatch Sample.shard [⟨"m1", "alice"⟩]), .start (.openEvent Sample.seed .ascending),
    .start (.controllerPass 100 .ascending),
    .start (.applyEdge (.failOpen "5" "operator" ⟨105000000000⟩) willingEdge),
    .start (.controllerPass 110 .ascending),
    .start (.applyEdge (.recover "operator" ⟨115000000000⟩) willingEdge),
    .start (.controllerPass 120 .ascending), .start (.controllerPass 130 .ascending)] ++
  Sample.commits 0 5 ++ Sample.commits 1 11 ++ Sample.commits 2 12 ++ Sample.commits 3 2 ++
    Sample.commits 4 11 ++ Sample.commits 5 2 ++ Sample.commits 6 12 ++ Sample.commits 7 12

/-- The clock reading of a pass. -/
def Job.passTime : Job → Option ℕ
  | .controllerPass now _ => some now
  | _ => none

/-- What a pass returned, with its clock reading. -/
def Outcome.passed : Job × Outcome → Option (ℕ × PassOutcome)
  | (.controllerPass now _, .pass (.ok result)) => some (now, result)
  | _ => none

theorem passed_of_result {c : Room} {thread now : ℕ} {result : PassOutcome}
    (returned : (c.result thread).bind Outcome.passed = some (now, result)) :
    Passed c thread now result := by
  obtain ⟨⟨job, outcome⟩, found, matched⟩ := Option.bind_eq_some_iff.mp returned
  rw [Passed, found]
  cases job with
  | controllerPass time order =>
      cases outcome with
      | pass answer =>
          cases answer with
          | ok same =>
              simp only [Outcome.passed, Option.some.injEq, Prod.mk.injEq] at matched
              obtain ⟨rfl, rfl⟩ := matched
              exact ⟨order, rfl⟩
          | error _ => cases matched
      | _ => cases matched
  | _ => cases matched

/-- The releases of a log landed. -/
def releasesLanded (log : List RoomEntry) : Bool :=
  log.all fun entry =>
    match entry.exchange with
    | ⟨.updateCounters (.writeRelease _ _), .ok (some _)⟩ => true
    | ⟨.updateCounters (.writeRelease _ _), _⟩ => false
    | _ => true

/-- Passes that ran in the order of their threads, an interval apart, and all landed. -/
theorem cadence_of_sorted {c : Room} (sorted : (c.log.map Entry.thread).Pairwise (· ≥ ·))
    (times : (c.jobs.map Job.passTime).Pairwise fun early late =>
      ∀ now ∈ early, ∀ later ∈ late, now + intervalSecs ≤ later)
    (landed : releasesLanded c.log) : Cadence c where
  apart := by
    have ordered : ∀ {i j now now' order order'}, i < j →
        c.jobs[i]? = some (.controllerPass now order) →
          c.jobs[j]? = some (.controllerPass now' order') →
            RunsBefore c.log i j ∧ now + intervalSecs ≤ now' := by
      intro i j now now' order order' less first second
      refine ⟨runsBefore_of_sorted sorted less, ?_⟩
      obtain ⟨boundᵢ, atᵢ⟩ := List.getElem?_eq_some_iff.mp first
      obtain ⟨boundⱼ, atⱼ⟩ := List.getElem?_eq_some_iff.mp second
      refine List.pairwise_iff_getElem.mp times i j (by simpa using boundᵢ) (by simpa using boundⱼ)
        less now ?_ now' ?_
      · simp [atᵢ, Job.passTime]
      · simp [atⱼ, Job.passTime]
    intro i j now now' order order' distinct first second
    rcases Nat.lt_or_gt_of_ne distinct with less | more
    · exact .inl (ordered less first second)
    · exact .inr (ordered more second first)
  landing := by
    intro entry member decision expected release
    have checked := List.all_eq_true.mp landed entry member
    obtain ⟨thread, job, ⟨call, answer⟩, before, after⟩ := entry
    cases release
    rcases answer with error | (none | item)
    · cases checked
    · cases checked
    · exact ⟨item, rfl⟩

/-- The pass after the fail-open carries the rate of the pass before it. -/
theorem hold_not_measured_sample : ∃ c : Room,
    RoomRun Sample.deployment .free Sample.origin c ∧ Ran c 2 100 ∧
    Passed c 4 110 (.held .failOpen) ∧ Ran c 6 120 ∧
    ∃ inputs₁ prev₁ decision₁ inputs₂ prev₂ decision₂,
      Computes c.log 2 100 inputs₁ prev₁ decision₁ ∧
      Computes c.log 6 120 inputs₂ prev₂ decision₂ ∧ decision₂.noShow = decision₁.noShow := by
  obtain ⟨c, run, good⟩ := System.exists_reaches_of_run
    (show ((room Sample.deployment).run .free (.initial Sample.origin) holdSchedule).any
      (fun c => decide ((c.log.map Entry.thread).Pairwise (· ≥ ·)) &&
        decide ((c.jobs.map Job.passTime).Pairwise fun early late =>
          ∀ now ∈ early, ∀ later ∈ late, now + intervalSecs ≤ later) &&
        releasesLanded c.log &&
        decide ((c.result 2).bind Outcome.passed = some (100, .ran 2) ∧
          (c.result 4).bind Outcome.passed = some (110, .held .failOpen) ∧
          (c.result 6).bind Outcome.passed = some (120, .ran 0) ∧
          (c.result 7).bind Outcome.passed = some (130, .ran 0))) by decide +kernel)
  simp only [Bool.and_eq_true, decide_eq_true_eq] at good
  obtain ⟨⟨⟨sorted, times⟩, landed⟩, first, hold, resume, next⟩ := good
  have cadence := cadence_of_sorted sorted times landed
  have ran₁ : Ran c 2 100 := ⟨2, passed_of_result first⟩
  have held : Passed c 4 110 (.held .failOpen) := passed_of_result hold
  have ran₂ : Ran c 6 120 := ⟨0, passed_of_result resume⟩
  have successive : ∀ thread now, Ran c thread now → ¬ (100 < now ∧ now < 120) := by
    rintro thread now ran ⟨early, late⟩
    obtain ⟨order₁, job₁⟩ := ran₁.job
    obtain ⟨order, job⟩ := ran.job
    obtain ⟨orderₕ, jobₕ⟩ := held.job
    obtain ⟨order₂, job₂⟩ := ran₂.job
    have gap₁ := (cadence.ordered job₁ job early).2
    have gap₂ := (cadence.ordered job job₂ late).2
    rw [intervalSecs] at gap₁ gap₂
    obtain rfl : now = 110 := by omega
    -- the only pass then is the one that was held
    obtain rfl : thread = 4 := by
      by_contra other
      rcases cadence.apart _ _ _ _ _ _ other job jobₕ with ⟨-, gap⟩ | ⟨-, gap⟩
      · rw [intervalSecs] at gap
        omega
      · rw [intervalSecs] at gap
        omega
    obtain ⟨released, _, ranThen⟩ := ran
    obtain ⟨_, heldThen⟩ := held
    rw [heldThen] at ranThen
    cases ranThen
  obtain ⟨inputs₁, prev₁, decision₁, inputs₂, prev₂, decision₂, computes₁, computes₂, carried, -⟩ :=
    hold_not_measured run cadence ran₁ (.inl ⟨.failOpen, held⟩) ran₂ (by decide) (by decide)
      successive
  exact ⟨c, run, ran₁, held, ran₂, inputs₁, prev₁, decision₁, inputs₂, prev₂,
    decision₂, computes₁, computes₂, carried⟩

end WaitingRoom
