import WaitingRoom.Common.Items

/-!
# The conditional updates of the `Counters` item

Four Lambdas write the event's `Counters` item, each by one `UpdateItem`: the join batch
claims a block of positions, the open writes its outputs, the controller advances the
cursor, and the operator's actions change the phase, the rate, the message, the admission
control, the fail-open deadline and the announced start. `CountersUpdate` names each of these
requests with what it carries, and `condition` and `clauses` are the expressions it is sent with.

Only the open writes the seed, the cohort size and the offsets
(`CountersUpdate.attr_of_openAttr`).
-/

set_option autoImplicit false

namespace WaitingRoom

open Dynamo

/-- A store failure. -/
structure StoreError where
  message : String
  deriving DecidableEq, Repr

/-- A store error with the name of the request that met it. -/
def StoreError.at (request : String) (error : StoreError) : StoreError :=
  ⟨request ++ ": " ++ error.message⟩

/-! ## What the requests carry -/

/-- The values written when the event opens. -/
structure OpenValues where
  seed : Seed
  participantCount : ℕ
  offsets : Shard → ℕ

/-- The controller's smoothed view of the no-show rate. -/
structure NoShowState where
  smoothedRate : ℚ
  deriving DecidableEq

/-- The outcome of one release computation. -/
structure ReleaseDecision where
  release : ℕ
  nextServingCounter : ℕ
  previousServingCounter : ℕ
  arrivalsTotal : ℕ
  noShow : NoShowState
  lastOpenPassAt : ℕ
  deriving DecidableEq

/-- The mutating operator actions. -/
inductive AdminAction where
  | setRate
  | setMessage
  | pause
  | resume
  | forceMaintenance
  | setPhase
  | failOpen
  | recover
  | setRules
  | setStartTime
  | clearStartTime
  | openNow
  | setIpBinding
  deriving DecidableEq, Repr

/-- The stored audit label. -/
def AdminAction.asStr : AdminAction → String
  | .setRate => "set_rate"
  | .setMessage => "set_message"
  | .pause => "pause"
  | .resume => "resume"
  | .forceMaintenance => "force_maintenance"
  | .setPhase => "set_phase"
  | .failOpen => "fail_open"
  | .recover => "recover"
  | .setRules => "set_rules"
  | .setStartTime => "set_start_time"
  | .clearStartTime => "clear_start_time"
  | .openNow => "open_now"
  | .setIpBinding => "set_ip_binding"

/-- The instant a request arrived, in nanoseconds since the epoch. -/
structure ArrivalTime where
  nanos : ℕ
  deriving DecidableEq

/-- `as_millisecond`. -/
def ArrivalTime.millis (now : ArrivalTime) : ℕ := now.nanos / 1000000

/-- The arrival instant in epoch seconds. -/
def ArrivalTime.epochSeconds (now : ArrivalTime) : ℕ := now.nanos / 1000000000

/-- The year, month and day that many days after the epoch. -/
def civilDate (days : ℕ) : ℕ × ℕ × ℕ :=
  -- in eras of 400 years that start in March
  let shifted := days + 719468
  let dayOfEra := shifted % 146097
  let yearOfEra := (dayOfEra - dayOfEra / 1460 + dayOfEra / 36524 - dayOfEra / 146096) / 365
  let dayOfYear := dayOfEra - (365 * yearOfEra + yearOfEra / 4 - yearOfEra / 100)
  let monthFromMarch := (5 * dayOfYear + 2) / 153
  let day := dayOfYear - (153 * monthFromMarch + 2) / 5 + 1
  let month := if monthFromMarch < 10 then monthFromMarch + 3 else monthFromMarch - 9
  let year := shifted / 146097 * 400 + yearOfEra
  (if month ≤ 2 then year + 1 else year, month, day)

/-- A number in at least so many digits. -/
def padded (width n : ℕ) : String :=
  String.ofList (List.replicate (width - n.repr.length) '0') ++ n.repr

/-- `YYYY-MM-DDTHH:MM:SSZ`. -/
def auditTimestamp (now : ArrivalTime) : String :=
  let (year, month, day) := civilDate (now.epochSeconds / 86400)
  let second := now.epochSeconds % 86400
  s!"{padded 4 year}-{padded 2 month}-{padded 2 day}T{padded 2 (second / 3600)}:{padded 2 (second / 60 % 60)}:{padded 2 (second % 60)}Z"

example : auditTimestamp ⟨1700000000000000000⟩ = "2023-11-14T22:13:20Z" := by decide +kernel

/-- The debounce window in milliseconds. -/
def debounceMillis : ℕ := 2000

/-- What every operator action stamps on the item. -/
structure Audit where
  action : AdminAction
  actor : String
  now : ArrivalTime
  deriving DecidableEq

/-- One `UpdateItem` on the `Counters` item. -/
inductive CountersUpdate where
  | claimBlock (n : ℕ)
  | writeOpen (values : OpenValues)
  | writeRelease (decision : ReleaseDecision) (expectedServingCounter : ℕ)
  | setPhase (prior target : Phase) (audit : Audit)
  | setRate (expected : Option ℕ) (rate : ℕ) (audit : Audit)
  | setMessage (message : String) (audit : Audit)
  | setStoredControl (prior target : StoredControl) (audit : Audit)
  | stampAction (audit : Audit)
  | forceMaintenance (prior : Phase) (audit : Audit)
  | setFailOpenUntil (deadline : ℕ) (audit : Audit)
  | setFailOpenUntilFallback (deadline : ℕ)
  | rulesAudit (digest : String) (count : ℕ) (audit : Audit)
  | setStartsAt (startsAt : Option (ℕ × String)) (audit : Audit)

/-! ## Conditions -/

/-- The guard on the open: not opened yet, and in the pre-queue. -/
def openGuard : Condition :=
  .and (.attributeNotExists "shuffle_seed") (.equals "phase" (.S Phase.preQueue.asWireStr))

/-- The last stamped action is at least the debounce window old. -/
def debouncePredicate (now : ArrivalTime) : Condition :=
  .or (.attributeNotExists "last_action_epoch_ms")
    (.atMost "last_action_epoch_ms" (((now.millis : ℤ) - (debounceMillis : ℤ) : ℤ) : ℚ))

/-- No newer action is stamped. -/
def stampPredicate (now : ArrivalTime) : Condition :=
  .or (.attributeNotExists "last_action_epoch_ms") (.atMost "last_action_epoch_ms" now.millis)

/-- The stored rate is still the expected one. -/
def guardExpectedRate : Option ℕ → Condition
  | some rate => .equals "target_rate" (.N rate)
  | none => .attributeNotExists "target_rate"

/-- The stored control is still the expected one; an absent one reads as open. -/
def controlGuard : StoredControl → Condition
  | .open => .or (.attributeNotExists "admission_control")
      (.equals "admission_control" (.S StoredControl.open.asWireStr))
  | .paused => .equals "admission_control" (.S StoredControl.paused.asWireStr)

namespace CountersUpdate

/-- The condition expression of a request. -/
def condition : CountersUpdate → Condition
  | .claimBlock _ => .always
  | .writeOpen _ => openGuard
  | .writeRelease _ expected =>
      .or (.attributeNotExists "serving_counter") (.equals "serving_counter" (.N expected))
  | .setPhase prior _ _ => .equals "phase" (.S prior.asWireStr)
  | .setRate expected _ audit => .and (guardExpectedRate expected) (debouncePredicate audit.now)
  | .setMessage _ audit => debouncePredicate audit.now
  | .setStoredControl prior _ audit => .and (controlGuard prior) (debouncePredicate audit.now)
  | .stampAction audit => stampPredicate audit.now
  | .forceMaintenance prior _ => .equals "phase" (.S prior.asWireStr)
  | .setFailOpenUntil _ audit => stampPredicate audit.now
  | .setFailOpenUntilFallback _ => .always
  | .rulesAudit _ _ audit => stampPredicate audit.now
  | .setStartsAt _ audit => debouncePredicate audit.now

/-! ## Clauses -/

/-- The audit fields. -/
def auditClauses (audit : Audit) : List Clause :=
  [.set "last_action" (.S audit.action.asStr), .set "last_action_by" (.S audit.actor),
    .set "last_action_at" (.S (auditTimestamp audit.now)),
    .set "last_action_epoch_ms" (.N audit.now.millis)]

/-- The clauses of the announced start. Clearing it removes both attributes. -/
def startsAtClauses : Option (ℕ × String) → List Clause
  | some (secs, timezone) => [.set "starts_at" (.N secs), .set "starts_at_tz" (.S timezone)]
  | none => [.remove "starts_at", .remove "starts_at_tz"]

/-- The update expression of a request. -/
def clauses : CountersUpdate → List Clause
  | .claimBlock n => [.add "queue_counter" n]
  | .writeOpen values =>
      [.set "shuffle_seed" (.B values.seed.bytes),
        .set "participant_count" (.N values.participantCount),
        -- the live-join sequence starts behind the cohort
        .set "queue_counter" (.N values.participantCount),
        .set "prequeue_offsets" (offsetsAttribute values.offsets),
        .set "phase" (.S Phase.active.asWireStr)]
  | .writeRelease decision _ =>
      [.set "serving_counter" (.N decision.nextServingCounter),
        .set "last_serving_counter" (.N decision.previousServingCounter),
        .set "last_arrivals_total" (.N decision.arrivalsTotal),
        .set "no_show_rate" (.N decision.noShow.smoothedRate),
        .set "last_open_pass_at" (.N decision.lastOpenPassAt)]
  | .setPhase _ target audit => .set "phase" (.S target.asWireStr) :: auditClauses audit
  | .setRate _ rate audit => .set "target_rate" (.N rate) :: auditClauses audit
  | .setMessage message audit => .set "message" (.S message) :: auditClauses audit
  | .setStoredControl _ target audit =>
      .set "admission_control" (.S target.asWireStr) :: auditClauses audit
  | .stampAction audit => auditClauses audit
  | .forceMaintenance _ audit =>
      .set "phase" (.S Phase.maintenance.asWireStr) :: auditClauses audit
  | .setFailOpenUntil deadline audit =>
      .set "fail_open_until" (.N deadline) :: auditClauses audit
  | .setFailOpenUntilFallback deadline => [.set "fail_open_until" (.N deadline)]
  | .rulesAudit digest count audit =>
      .set "rules_digest" (.S digest) :: .set "rules_count" (.N count) :: auditClauses audit
  | .setStartsAt startsAt audit => startsAtClauses startsAt ++ auditClauses audit

/-- The attributes only the open writes. -/
def openAttrs : List String := ["shuffle_seed", "participant_count", "prequeue_offsets"]

/-- **A request that is not the open leaves the open's outputs alone.** -/
theorem attr_of_openAttr {update : CountersUpdate} (other : ∀ values, update ≠ .writeOpen values)
    {attr : String} (openAttr : attr ∈ openAttrs) :
    ∀ clause ∈ update.clauses, attr ≠ clause.attr := by
  intro clause member
  cases update with
  | writeOpen values => exact absurd rfl (other values)
  | claimBlock _ | writeRelease _ _ | setPhase _ _ _ | setRate _ _ _ | setMessage _ _
  | setStoredControl _ _ _ | stampAction _ | forceMaintenance _ _ | setFailOpenUntil _ _
  | setFailOpenUntilFallback _ | rulesAudit _ _ _ =>
      revert attr clause
      simp [clauses, auditClauses, openAttrs, Clause.attr]
  | setStartsAt startsAt _ =>
      revert attr clause
      cases startsAt <;> simp [clauses, startsAtClauses, auditClauses, openAttrs, Clause.attr]

/-- The attributes only a release writes. -/
def releaseAttrs : List String :=
  ["serving_counter", "last_serving_counter", "last_arrivals_total", "no_show_rate",
    "last_open_pass_at"]

/-- **A request that is not a release leaves the cursor and the measurement alone.** -/
theorem attr_of_releaseAttr {update : CountersUpdate}
    (other : ∀ decision expected, update ≠ .writeRelease decision expected) {attr : String}
    (releaseAttr : attr ∈ releaseAttrs) : ∀ clause ∈ update.clauses, attr ≠ clause.attr := by
  intro clause member
  cases update with
  | writeRelease decision expected => exact absurd rfl (other decision expected)
  | claimBlock _ | writeOpen _ | setPhase _ _ _ | setRate _ _ _ | setMessage _ _
  | setStoredControl _ _ _ | stampAction _ | forceMaintenance _ _ | setFailOpenUntil _ _
  | setFailOpenUntilFallback _ | rulesAudit _ _ _ =>
      revert attr clause
      simp [clauses, auditClauses, releaseAttrs, Clause.attr]
  | setStartsAt startsAt _ =>
      revert attr clause
      cases startsAt <;> simp [clauses, startsAtClauses, auditClauses, releaseAttrs, Clause.attr]

end CountersUpdate

end WaitingRoom
