import WaitingRoom.Concurrency.Expiring
import WaitingRoom.Lambda.Admin
import WaitingRoom.Text.Hex

/-!
# Answering `/status`

One document for everyone who waits: the phase, what a visitor meets at the door, the cursor, and,
once the event has opened, what its order was drawn from. An execution environment answers it from a
short-lived copy of the `Counters` item.
-/

set_option autoImplicit false

namespace WaitingRoom

open Dynamo Concurrency Text

/-! ## The door -/

/-- What an arriving visitor experiences right now. -/
inductive ServingState where
  | running
  | paused
  | closed
  | failOpen
  deriving DecidableEq, Repr

/-- The serving state of a phase under a control. -/
def servingState (phase : Phase) : AdmissionControl → ServingState
  | .failOpen => .failOpen
  | .paused =>
      match phase with
      | .active => .paused
      | .idle | .preQueue | .postEvent | .maintenance => .closed
  | .open =>
      match phase with
      | .active => .running
      | .idle | .preQueue | .postEvent | .maintenance => .closed

/-- **The door says it is running exactly when an admission may be granted.** -/
theorem servingState_eq_running {counters : Counters} {now : ℕ} :
    servingState counters.phase (resolve counters.storedControl counters.failOpenUntil now) = .running ↔
      resolve counters.storedControl counters.failOpenUntil now = .open ∧ counters.phase = .active := by
  cases resolve counters.storedControl counters.failOpenUntil now <;> cases counters.phase <;>
    simp [servingState]

/-! ## The poll policy -/

/-- The floor, the ceiling and the divisor a page clamps its interval to. -/
structure PollPolicy where
  floorMs : ℕ
  ceilingMs : ℕ
  divisor : ℕ
  deriving DecidableEq, Repr

/-- The bounds of an interval. -/
def minIntervalMs : ℕ := 1000

def maxIntervalMs : ℕ := 300000

/-- The bound of a divisor. -/
def maxDivisor : ℕ := 1000

/-- An interval or a divisor is within its bounds, and the clamp is not inverted. -/
structure PollPolicy.Sane (policy : PollPolicy) : Prop where
  floor : minIntervalMs ≤ policy.floorMs ∧ policy.floorMs ≤ maxIntervalMs
  ceiling : minIntervalMs ≤ policy.ceilingMs ∧ policy.ceilingMs ≤ maxIntervalMs
  divisor : 1 ≤ policy.divisor ∧ policy.divisor ≤ maxDivisor
  clamp : policy.floorMs ≤ policy.ceilingMs

/-- The policy of three environment variables, whole or not at all. -/
def parsePollPolicy (floorMs ceilingMs divisor : Option String) : Option PollPolicy := do
  let floorMs ← floorMs.bind parseU32
  let ceilingMs ← ceilingMs.bind parseU32
  let divisor ← divisor.bind parseU32
  if ¬ (minIntervalMs ≤ floorMs ∧ floorMs ≤ maxIntervalMs) ∨
      ¬ (minIntervalMs ≤ ceilingMs ∧ ceilingMs ≤ maxIntervalMs) ∨
      ¬ (1 ≤ divisor ∧ divisor ≤ maxDivisor) ∨ ceilingMs < floorMs then none
  else some ⟨floorMs, ceilingMs, divisor⟩

/-- **A policy is published exactly when its three variables are numbers of a sane one.** -/
theorem parsePollPolicy_eq_some {floorMs ceilingMs divisor : Option String} {policy : PollPolicy} :
    parsePollPolicy floorMs ceilingMs divisor = some policy ↔
      floorMs.bind parseU32 = some policy.floorMs ∧ ceilingMs.bind parseU32 = some policy.ceilingMs ∧
        divisor.bind parseU32 = some policy.divisor ∧ policy.Sane := by
  simp only [parsePollPolicy, Option.bind_eq_bind, Option.bind_eq_some_iff]
  constructor
  · rintro ⟨floor, readFloor, ceiling, readCeiling, divisor, readDivisor, published⟩
    split_ifs at published with refused
    obtain rfl := Option.some.inj published
    simp only [not_or, not_not, not_lt] at refused
    obtain ⟨floorIn, ceilingIn, divisorIn, clamp⟩ := refused
    exact ⟨readFloor, readCeiling, readDivisor, floorIn, ceilingIn, divisorIn, clamp⟩
  · rintro ⟨readFloor, readCeiling, readDivisor, floorIn, ceilingIn, divisorIn, clamp⟩
    refine ⟨_, readFloor, _, readCeiling, _, readDivisor, ?_⟩
    rw [if_neg]
    simp only [not_or, not_not, not_lt]
    exact ⟨floorIn, ceilingIn, divisorIn, clamp⟩

/-! ## The document -/

/-- What `/status` answers when the event exists. -/
structure StatusResponse where
  eventId : String
  phase : Phase
  servingState : ServingState
  servingPosition : ℕ
  participantCount : Option ℕ
  prequeueOffsets : Option (Shard → ℕ)
  shuffleSeed : Option String
  message : Option String
  targetRate : Option ℕ
  pollPolicy : Option PollPolicy
  startsAt : Option ℕ

/-- `hex::encode` of a seed. -/
def encodeSeed (seed : Seed) : String := String.ofList (hexBytes seed.bytes)

/-- The document of the counters. -/
def status (counters : Counters) (pollPolicy : Option PollPolicy) (now : ℕ) : StatusResponse where
  eventId := counters.eventId
  phase := counters.phase
  servingState :=
    servingState counters.phase (resolve counters.storedControl counters.failOpenUntil now)
  servingPosition := counters.servingCounter
  participantCount := counters.participantCount
  prequeueOffsets := counters.prequeueOffsets
  shuffleSeed := counters.shuffleSeed.map encodeSeed
  message := counters.message
  targetRate := counters.targetRate
  pollPolicy := pollPolicy
  startsAt := counters.startsAt

/-- What `/status` answers. -/
inductive StatusReply where
  | document (response : StatusResponse)
  | eventNotFound

/-- Answer from the counters that were loaded. -/
def handleStatus (loaded : Option Counters) (pollPolicy : Option PollPolicy) (now : ℕ) :
    StatusReply :=
  match loaded with
  | none => .eventNotFound
  | some counters => .document (status counters pollPolicy now)

/-! ## The copy -/

/-- How long an environment keeps its copy, in milliseconds. -/
def countersTtl : ℕ := 1000

/-- The copy of an environment; an event that does not exist is kept as well. -/
abbrev CountersCache := Slot (Option Counters)

/-! ## The order -/

/-- A seed from its published text. -/
def decodeSeed (text : String) : Option Seed := (readHex text.toList).bind Seed.ofBytes

/-- **A seed is read back from its text.** -/
theorem decodeSeed_encodeSeed (seed : Seed) : decodeSeed (encodeSeed seed) = some seed := by
  rw [decodeSeed, encodeSeed, String.toList_ofList, readHex_hexBytes, Option.bind_some, Seed.ofBytes,
    dif_pos seed.size]

/-- What anyone can draw the order from: the seed, the offsets and the size that a document
publishes. -/
def StatusResponse.openOutputs (response : StatusResponse) : Option OpenOutputs := do
  let seed ← response.shuffleSeed.bind decodeSeed
  let offsets ← response.prequeueOffsets
  let participantCount ← response.participantCount
  return ⟨.fromParts offsets participantCount, seed⟩

/-- **A document publishes what the room itself draws the order from.** -/
theorem openOutputs_status (counters : Counters) (pollPolicy : Option PollPolicy) (now : ℕ) :
    (status counters pollPolicy now).openOutputs = counters.openOutputs := by
  have seeds : (counters.shuffleSeed.map encodeSeed).bind decodeSeed = counters.shuffleSeed := by
    cases counters.shuffleSeed with
    | none => rfl
    | some seed => exact decodeSeed_encodeSeed seed
  simp only [StatusResponse.openOutputs, status, Counters.openOutputs, seeds]

end WaitingRoom
