import WaitingRoom.Store.Tables

/-!
# Admission

`Counters.decide` is a pure function of the queue state: possession first, then the admission
control and the phase, then the position against the cursor. `admitVisitor` reads the rows, decides,
claims the visitor's one admission so that the arrival is counted once, and signs the
session. Nothing after the decision refuses the visitor but a signing failure.
-/

set_option autoImplicit false

namespace WaitingRoom

open Dynamo Concurrency

/-- A `Positions` row as the admission check reads it. -/
structure PositionRow where
  position : ℕ
  status : PositionStatus
  digest : Option SecretDigest
  deriving DecidableEq

/-- Why a visitor is not being admitted right now. -/
inductive Denied where
  | notRegistered
  | notAdmitting
  | notOpen
  | stillQueued (position serving : ℕ)
  | corrupt
  | notHolder
  deriving DecidableEq, Repr

def Denied.message : Denied → String
  | .notRegistered => "not registered"
  | .notAdmitting => "event is not admitting"
  | .notOpen => "event not yet open"
  | .stillQueued position serving => s!"still queued at {position}, now serving {serving}"
  | .corrupt => "corrupt registration"
  | .notHolder => "not the holder of this place in line"

/-- An admitted visitor. -/
structure Grant where
  position : ℕ
  digest : SecretDigest
  deriving DecidableEq

/-- What a session credential says. -/
structure Session where
  eventId : String
  requestId : RequestId
  issuedAt : ℕ
  expiresAt : ℕ
  ipTag : Option String

/-- The signing key: the credential of a session, unless signing fails, and the tag of a
viewer's network. -/
structure SigningKey where
  sign : Session → Option String
  ipTag : String → Option String

/-- What a minted session is signed with and scoped to. -/
structure Minting where
  key : SigningKey
  eventId : String
  sessionTtlSecs : ℕ

/-- The outcome of `admitVisitor`. -/
inductive Admission where
  | admitted (position expiresAt : ℕ) (credential : String)
  | refused (denied : Denied)
  | eventNotFound
  | signFailed
  deriving DecidableEq

/-- `SecretDigest::of`: the digest of a secret. -/
abbrev DigestOf := PossessionSecret → SecretDigest

/-! ## The decision -/

/-- The visitor's position, from whichever path registered them. -/
def resolvePosition (hmac : Hmac) (counters : Counters) (prequeue : Option PreQueueItem)
    (positionRow : Option PositionRow) : Except Denied ℕ :=
  match positionRow with
  | some row =>
      match row.status with
      | .issued | .admitted => .ok row.position
  | none =>
      match prequeue with
      | none => .error .notRegistered
      | some row =>
          match counters.resolvePrequeue hmac row with
          | .ok (.preQueue position) => .ok position
          | .ok .liveJoin => .error .notRegistered
          | .error .notOpen => .error .notOpen
          | .error .badShard => .error .corrupt

/-- The digest of the row that would answer the position. -/
def storedDigest (prequeue : Option PreQueueItem) (positionRow : Option PositionRow) :
    Except Denied (Option SecretDigest) :=
  match positionRow, prequeue with
  | some row, _ => .ok row.digest
  | none, some row => .ok row.h
  | none, none => .error .notRegistered

/-- Possession: the stored digest is the presented secret's. -/
def verifyPossession (digestOf : DigestOf) (presented : PossessionSecret) :
    Option SecretDigest → Except Denied SecretDigest
  | some digest => if digest = digestOf presented then .ok digest else .error .notHolder
  | none => .error .notHolder

/-- The event is running and the operator is letting visitors through. -/
def checkAdmitting (counters : Counters) (now : ℕ) : Except Denied Unit :=
  match resolve counters.storedControl counters.failOpenUntil now with
  | .paused | .failOpen => .error .notAdmitting
  | .open => if counters.phase = .active then .ok () else .error .notAdmitting

/-- Decide whether the visitor may be admitted. -/
def Counters.decide (hmac : Hmac) (digestOf : DigestOf) (counters : Counters)
    (prequeue : Option PreQueueItem) (positionRow : Option PositionRow)
    (presented : PossessionSecret) (now : ℕ) : Except Denied Grant := do
  let stored ← storedDigest prequeue positionRow
  let digest ← verifyPossession digestOf presented stored
  checkAdmitting counters now
  let position ← resolvePosition hmac counters prequeue positionRow
  if counters.servingCounter ≤ position then
    .error (.stillQueued position counters.servingCounter)
  else .ok ⟨position, digest⟩

/-- A live-join row answers the position, whatever its status. -/
theorem resolvePosition_some (hmac : Hmac) (counters : Counters) (prequeue : Option PreQueueItem)
    (row : PositionRow) : resolvePosition hmac counters prequeue (some row) = .ok row.position := by
  cases status : row.status <;> simp [resolvePosition, status]

/-- Without one, only a counted pre-queue row has a position. -/
theorem resolvePosition_none {hmac : Hmac} {counters : Counters} {prequeue : Option PreQueueItem}
    {position : ℕ} (resolved : resolvePosition hmac counters prequeue none = .ok position) :
    ∃ row, prequeue = some row ∧ counters.resolvePrequeue hmac row = .ok (.preQueue position) := by
  cases prequeue with
  | none => cases resolved
  | some row =>
      refine ⟨row, rfl, ?_⟩
      simp only [resolvePosition] at resolved
      split at resolved
      · next same => rw [same, Except.ok.inj resolved]
      all_goals cases resolved

/-- A position that cannot be resolved is no matter of possession. -/
theorem resolvePosition_ne_notHolder {hmac : Hmac} {counters : Counters}
    {prequeue : Option PreQueueItem} {positionRow : Option PositionRow} :
    resolvePosition hmac counters prequeue positionRow ≠ .error .notHolder := by
  intro refused
  cases positionRow with
  | some row =>
      rw [resolvePosition_some] at refused
      cases refused
  | none =>
      simp only [resolvePosition] at refused
      split at refused
      · cases refused
      · split at refused <;> cases refused

/-- What a grant means. -/
theorem decide_eq_ok {hmac : Hmac} {digestOf : DigestOf} {counters : Counters}
    {prequeue : Option PreQueueItem} {positionRow : Option PositionRow} {presented : PossessionSecret}
    {now : ℕ} {grant : Grant}
    (granted : counters.decide hmac digestOf prequeue positionRow presented now = .ok grant) :
    storedDigest prequeue positionRow = .ok (some grant.digest) ∧
      grant.digest = digestOf presented ∧
      resolvePosition hmac counters prequeue positionRow = .ok grant.position ∧
      grant.position < counters.servingCounter := by
  simp only [Counters.decide, bind, Except.bind] at granted
  cases stored : storedDigest prequeue positionRow with
  | error denied => simp [stored] at granted
  | ok found =>
      cases found with
      | none => simp [stored, verifyPossession] at granted
      | some digest =>
          simp only [stored, verifyPossession] at granted
          split_ifs at granted with holder
          · simp only at granted
            cases admits : checkAdmitting counters now with
            | error denied => simp [admits] at granted
            | ok =>
                cases resolved : resolvePosition hmac counters prequeue positionRow with
                | error denied => simp [admits, resolved] at granted
                | ok position =>
                    simp only [admits, resolved] at granted
                    split_ifs at granted with queued
                    · obtain rfl := Except.ok.inj granted
                      exact ⟨rfl, holder, rfl, Nat.not_le.mp queued⟩

/-- What a refusal means, when the visitor has a row and the row a position. -/
theorem decide_eq_error {hmac : Hmac} {digestOf : DigestOf} {counters : Counters}
    {prequeue : Option PreQueueItem} {positionRow : Option PositionRow} {presented : PossessionSecret}
    {now : ℕ} {denied : Denied} {stored : Option SecretDigest}
    (held : storedDigest prequeue positionRow = .ok stored)
    (refused : counters.decide hmac digestOf prequeue positionRow presented now = .error denied) :
    denied = .notHolder ∧ stored ≠ some (digestOf presented) ∨
      stored = some (digestOf presented) ∧ (denied = .notAdmitting ∨
        resolvePosition hmac counters prequeue positionRow = .error denied ∨
        ∃ position, resolvePosition hmac counters prequeue positionRow = .ok position ∧
          denied = .stillQueued position counters.servingCounter) := by
  have admitting : ∀ denied, checkAdmitting counters now = .error denied → denied = .notAdmitting := by
    intro denied refused
    simp only [checkAdmitting] at refused
    split at refused
    · exact (Except.error.inj refused).symm
    · exact (Except.error.inj refused).symm
    · split_ifs at refused
      exact (Except.error.inj refused).symm
  simp only [Counters.decide, bind, Except.bind, held] at refused
  cases stored with
  | none =>
      obtain rfl := Except.error.inj refused
      exact .inl ⟨rfl, nofun⟩
  | some digest =>
      by_cases holder : digest = digestOf presented
      · refine .inr ⟨congrArg some holder, ?_⟩
        simp only [verifyPossession, if_pos holder] at refused
        cases admits : checkAdmitting counters now with
        | error other =>
            simp only [admits] at refused
            obtain rfl := Except.error.inj refused
            exact .inl (admitting other admits)
        | ok =>
            simp only [admits] at refused
            cases resolved : resolvePosition hmac counters prequeue positionRow with
            | error other =>
                simp only [resolved] at refused
                exact .inr (.inl (congrArg Except.error (Except.error.inj refused)))
            | ok position =>
                simp only [resolved] at refused
                split_ifs at refused
                exact .inr (.inr ⟨position, rfl, (Except.error.inj refused).symm⟩)
      · simp only [verifyPossession, if_neg holder] at refused
        exact .inl ⟨(Except.error.inj refused).symm, fun same => holder (Option.some.inj same)⟩

/-! ## The store -/

/-- Read the position, status and digest off a `Positions` item. -/
def positionFromItem (item : PositionItem) : PositionRow :=
  ⟨item.queuePosition, item.status, item.h⟩

/-- Read the event's `Counters` item with a strongly consistent read. -/
def loadQueueState (eventId : String) : Program Tables (Except StoreError (Option Counters)) :=
  request (.getCounters true) "get_item counters" fun item =>
    .ok (item.map (Counters.fromItem eventId))

/-- Read a visitor's `Positions` row with a strongly consistent read. -/
def loadPosition (requestId : RequestId) :
    Program Tables (Except StoreError (Option PositionRow)) :=
  request (.getPosition true requestId) "get_item positions" fun item =>
    .ok (item.map positionFromItem)

/-- Read a visitor's `PreQueue` registration, eventually consistent. -/
def loadPrequeue (requestId : RequestId) :
    Program Tables (Except StoreError (Option PreQueueItem)) :=
  request (.getPrequeue requestId) "get_item prequeue" .ok

/-- The pre-queue lookup, skipped when a live-join row answers. -/
def loadPrequeueUnless (requestId : RequestId) (positionRow : Option PositionRow) :
    Program Tables (Except StoreError (Option PreQueueItem)) :=
  match positionRow with
  | some _ => return .ok none
  | none => loadPrequeue requestId

/-- Claim this visitor's one admission. -/
def claimAdmission (requestId : RequestId) (position : ℕ) (digest : SecretDigest) :
    Program Tables (Except StoreError AdmissionClaim) :=
  request (.claimAdmission requestId position digest) "update_item claim admission" .ok

/-- Record that this visitor showed up. -/
def recordArrival (shard : Shard) : Program Tables (Except StoreError Unit) :=
  request (.addArrivals shard) "update_item arrivals" .ok

/-! ## The admission -/

/-- Count the arrival of a first admission on the drawn shard. A draw that failed, or a
record that fails, refuses nobody. -/
def countArrival (draw : Option Shard) : AdmissionClaim → Program Tables Unit
  | .first =>
      match draw with
      | some shard => do
          let _ ← recordArrival shard
          return
      | none => return
  | .repeat => return

/-- A claim that failed leaves it unknown whether the arrival was counted, so it is counted. -/
def claimOrFirst : Except StoreError AdmissionClaim → AdmissionClaim
  | .ok claim => claim
  | .error _ => .first

/-- The session a visitor admitted at `now` is given. -/
def Minting.session (minting : Minting) (requestId : RequestId) (viewerIp : Option String)
    (now : ℕ) : Session :=
  ⟨minting.eventId, requestId, now, saturatingAdd now minting.sessionTtlSecs,
    viewerIp.bind minting.key.ipTag⟩

/-- Claim the admission, record the arrival and sign the session. -/
def mint (minting : Minting) (requestId : RequestId) (viewerIp : Option String) (now : ℕ)
    (draw : Option Shard) (grant : Grant) : Program Tables Admission := do
  let claim ← claimAdmission requestId grant.position grant.digest
  countArrival draw (claimOrFirst claim)
  let session := minting.session requestId viewerIp now
  match minting.key.sign session with
  | some credential => return .admitted grant.position session.expiresAt credential
  | none => return .signFailed

/-- The whole admission. The caller's random shard is `draw`, `none` when the draw fails. -/
def admitVisitor (hmac : Hmac) (digestOf : DigestOf) (minting : Minting) (requestId : RequestId)
    (secret : PossessionSecret) (viewerIp : Option String) (now : ℕ) (draw : Option Shard) :
    Program Tables (Except StoreError Admission) := do
  match ← loadQueueState minting.eventId with
  | .error error => return .error error
  | .ok none => return .ok .eventNotFound
  | .ok (some counters) =>
      match ← loadPosition requestId with
      | .error error => return .error error
      | .ok positionRow =>
          match ← loadPrequeueUnless requestId positionRow with
          | .error error => return .error error
          | .ok prequeue =>
              match counters.decide hmac digestOf prequeue positionRow secret now with
              | .error denied => return .ok (.refused denied)
              | .ok grant => return .ok (← mint minting requestId viewerIp now draw grant)

end WaitingRoom
