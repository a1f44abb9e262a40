import WaitingRoom.System

/-!
# The protocol of the room's jobs

`legal` says what a job of the room has learned by the time it makes a call, in terms of the
answers it has received and of nothing else. A block of positions is claimed once, by a batch
that read an opened event. Rows are written in the order of their block. The open's values are
the fold of ten shard reads. An admission is claimed for what `Counters.decide` granted on
the rows that were read. That every program conforms is proved program by program, whatever
the store answers.
-/

set_option autoImplicit false

namespace WaitingRoom

open Dynamo Concurrency

/-- The answered calls of one job, latest first. -/
abbrev History := List (Exchange Tables)

/-- One answered call. -/
abbrev answered (call : Call) (answer : Except StoreError (Payload call)) : Exchange Tables :=
  ⟨call, answer⟩

/-- The attributes of the `Counters` item, as every reader of positions parses them. -/
abbrev Deployment.parse (d : Deployment) (item : Item) : Counters :=
  Counters.fromItem d.eventId item

/-! ## Blocks -/

/-- A claim of `n` live positions that was answered. -/
abbrev liveClaim (n : ℕ) (item : Item) : Exchange Tables :=
  answered (.updateCounters (.claimBlock n)) (.ok (some item))

/-- A claim of `count` local indices that was answered. -/
abbrev shardClaim (shard : Shard) (count : ℕ) (item : Item) : Exchange Tables :=
  answered (.addShard shard count) (.ok item)

/-- A live block was claimed and rows were written since: the next row is the
`puts.length`-th of a block of `n` that ends at `stop`. -/
structure InLiveBlock (history puts : History) (n stop : ℕ) : Prop where
  claimed : ∃ item older, num item "queue_counter" = some stop ∧
    history = puts ++ liveClaim n item :: older
  puts_only : ∀ put ∈ puts, ∃ write, put.call = .putPosition write

/-- A shard block was claimed and rows were written since. -/
structure InShardBlock (history puts : History) (shard : Shard) (count start : ℕ) : Prop where
  claimed : ∃ item stop older, num item shardCountAttr = some stop ∧
    checkedSub stop count = some start ∧
    history = puts ++ shardClaim shard count item :: older
  puts_only : ∀ put ∈ puts, ∃ write, put.call = .putPrequeue write

/-! ## What a job knows when it makes a call -/

/-- A block of positions is claimed once, by a batch that read an opened event. -/
structure ClaimsLiveBlock (d : Deployment) (job : Job) (history : History) : Prop where
  batch : ∃ shard records, job = .joinBatch shard records
  opened : ∃ item, answered (.getCounters true) (.ok (some item)) ∈ history ∧
    (d.parse item).openOutputs ≠ none
  once : ∀ exchange ∈ history, ∀ n, exchange.call ≠ .updateCounters (.claimBlock n)

/-- A position row takes the next position of the batch's block. -/
structure PutsPosition (job : Job) (history : History) (write : PositionWrite) : Prop where
  batch : ∃ shard records, job = .joinBatch shard records
  block : ∃ puts n stop, InLiveBlock history puts n stop ∧ puts.length < n ∧
    write.position = saturatingAdd (blockStart stop n) puts.length

/-- A block of local indices is claimed once, on the batch's own shard. -/
structure ClaimsShardBlock (job : Job) (history : History) (shard : Shard) : Prop where
  batch : ∃ records, job = .joinBatch shard records
  once : ∀ exchange ∈ history, ∀ other count, exchange.call ≠ .addShard other count

/-- A pre-queue row takes the next local index of the batch's block. -/
structure PutsPrequeue (job : Job) (history : History) (write : PreQueueWrite) : Prop where
  batch : ∃ shard records, job = .joinBatch shard records
  block : ∃ puts count start, InShardBlock history puts write.shard count start ∧
    puts.length < count ∧ write.localIndex = saturatingAdd start puts.length

/-- The jobs that perform the open. -/
def Job.Opens : Job → Prop
  | .openEvent _ _ => True
  | .applyOpenNow _ _ _ _ _ => True
  | _ => False

/-- A shard is read once by an open. -/
structure ReadsShard (job : Job) (history : History) (shard : Shard) : Prop where
  opens : job.Opens
  once : ∀ exchange ∈ history, exchange.call ≠ .getShard shard

/-- The items of the shards that were read. -/
structure ShardReads (history : History) (items : List Item) : Prop where
  from_read : ∀ item ∈ items, ∃ shard, answered (.getShard shard) (.ok (some item)) ∈ history
  of_read : ∀ shard item, answered (.getShard shard) (.ok (some item)) ∈ history → item ∈ items

/-- The open's values are the fold of the ten shard reads. -/
structure WritesOpen (job : Job) (history : History) (values : OpenValues) : Prop where
  opens : job.Opens
  complete : ∀ shard, ∃ item, answered (.getShard shard) (.ok item) ∈ history
  folded : ∃ items counts seed, ShardReads history items ∧
    countsFromShardItems items (fun _ => 0) = .ok counts ∧ openValues counts seed = .ok values

/-- The calls that move the cursor. -/
def Call.isRelease : Call → Bool
  | .updateCounters (.writeRelease _ _) => true
  | _ => false

/-- What a pass has read before it decides: the item once, and arrivals shards. -/
structure PassReads (history : History) (item : Item) (arrivals : Shard → ℕ) : Prop where
  counters : answered (.getCounters true) (.ok (some item)) ∈ history
  others : ∀ exchange ∈ history, exchange = answered (.getCounters true) (.ok (some item)) ∨
    ∃ shard, exchange.call = .getArrivals shard
  folded : ∃ items, arrivalsFromShardItems items (fun _ => 0) = .ok arrivals ∧
    ∀ read ∈ items, ∃ shard, answered (.getArrivals shard) (.ok (some read)) ∈ history

/-- The cursor is moved by a pass of an active event that nothing holds, to what the release
computed from what the pass read. -/
def WritesRelease (job : Job) (history : History) (decision : ReleaseDecision) (expected : ℕ) :
    Prop :=
  ∃ now order item arrivals, job = .controllerPass now order ∧ PassReads history item arrivals ∧
    (controllerStateOf item arrivals).phase = .active ∧
    resolve (controllerStateOf item arrivals).storedControl
      (controllerStateOf item arrivals).failOpenUntil now = .open ∧
    decision = computeRelease f64 (controllerStateOf item arrivals).inputs (storedNoShow item) now ∧
    expected = (controllerStateOf item arrivals).inputs.servingCounter

/-- The phase is moved from where it was read, along a transition that was checked. -/
def SetsPhase (history : History) (prior target : Phase) : Prop :=
  ∃ item, answered (.getCounters false) (.ok (some item)) ∈ history ∧
    prior = (controlStateOf item).phase ∧ checkPhase (controlStateOf item) target = .ok ()

/-- What an admission read about a visitor. The pre-queue row is read only when there is no
position row. -/
structure AdmissionReads (history : History) (requestId : RequestId) (item : Item)
    (row : Option PositionItem) (prequeue : Option PreQueueItem) : Prop where
  counters : answered (.getCounters true) (.ok (some item)) ∈ history
  position : answered (.getPosition true requestId) (.ok row) ∈ history
  skipped : row ≠ none → prequeue = none
  prequeue_read : row = none → answered (.getPrequeue requestId) (.ok prequeue) ∈ history

/-- What `decide` makes of an admission's reads. -/
abbrev Deployment.decision (d : Deployment) (item : Item) (row : Option PositionItem)
    (prequeue : Option PreQueueItem) (secret : PossessionSecret) (now : ℕ) : Except Denied Grant :=
  (d.parse item).decide d.hmac d.digestOf prequeue (row.map positionFromItem) secret now

/-- An admission is claimed once, for what was granted. -/
structure ClaimsAdmission (d : Deployment) (job : Job) (history : History) (requestId : RequestId)
    (position : ℕ) (digest : SecretDigest) : Prop where
  granted : ∃ secret viewerIp now draw item row prequeue,
    job = .generateToken requestId secret viewerIp now draw ∧
    AdmissionReads history requestId item row prequeue ∧
    d.decision item row prequeue secret now = .ok ⟨position, digest⟩
  once : ∀ exchange ∈ history, ∀ r p h, exchange.call ≠ .claimAdmission r p h

/-- An arrival is recorded right after a claim that was not a repeat. -/
structure RecordsArrival (job : Job) (history : History) : Prop where
  admits : ∃ requestId secret viewerIp now draw, job = .generateToken requestId secret viewerIp now draw
  after_claim : ∃ requestId position digest answer older, answer ≠ .ok .repeat ∧
    history = answered (.claimAdmission requestId position digest) answer :: older

/-- **The protocol.** -/
def legal (d : Deployment) (job : Job) (history : History) : Call → Prop
  | .updateCounters (.claimBlock _) => ClaimsLiveBlock d job history
  | .updateCounters (.writeOpen values) => WritesOpen job history values
  | .updateCounters (.writeRelease decision expected) => WritesRelease job history decision expected
  | .updateCounters (.setPhase prior target _) => SetsPhase history prior target
  | .getShard shard => ReadsShard job history shard
  | .addShard shard _ => ClaimsShardBlock job history shard
  | .putPrequeue write => PutsPrequeue job history write
  | .putPosition write => PutsPosition job history write
  | .claimAdmission requestId position digest =>
      ClaimsAdmission d job history requestId position digest
  | .addArrivals _ => RecordsArrival job history
  -- reads, and the operator's writes beside the phase
  | _ => True

/-! ## The rules of one request -/

section Request

variable {α β : Type} {L : History → Call → Prop} {call : Call} {name : String}
  {decode : Payload call → Except StoreError α} {history : History}

/-- A request alone. -/
theorem obeys_request {final : History → Except StoreError α → Prop} (lawful : L history call)
    (failed : ∀ error, final (answered call (.error error) :: history) (.error (error.at name)))
    (decoded : ∀ payload, final (answered call (.ok payload) :: history) (decode payload)) :
    Obeys L final history (request call name decode) := by
  refine obeys_call.mpr ⟨lawful, fun answer => ?_⟩
  cases answer with
  | error error => exact failed error
  | ok payload => exact decoded payload

/-- A request and what the program does with its answer. -/
theorem obeys_request_bind {final : History → β → Prop}
    {next : Except StoreError α → Program Tables β} (lawful : L history call)
    (failed : ∀ error, Obeys L final (answered call (.error error) :: history)
      (next (.error (error.at name))))
    (decoded : ∀ payload, Obeys L final (answered call (.ok payload) :: history)
      (next (decode payload))) :
    Obeys L final history (request call name decode >>= next) := by
  refine obeys_call.mpr ⟨lawful, fun answer => ?_⟩
  cases answer with
  | error error => exact failed error
  | ok payload => exact decoded payload

end Request

end WaitingRoom
