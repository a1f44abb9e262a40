import WaitingRoom.Protocol.Legal

/-!
# A visitor's requests conform

An admission claims only what `Counters.decide` granted on the rows it read, and counts the
arrival right after the claim. What it answers is the decision on its reads
(`AdmitReport`). `/queue_num` writes nothing, and its answer is a function of its three reads
(`QueueNumReport`).
-/

set_option autoImplicit false

namespace WaitingRoom

open Dynamo Concurrency

/-! ## Admissions -/

/-- No admission was claimed. -/
def ClaimsNothing (history : History) : Prop :=
  ∀ exchange ∈ history, ∀ requestId position digest,
    exchange.call ≠ .claimAdmission requestId position digest

/-- A claim that is not known to be a repeat. -/
def CountsArrival (claim : Except StoreError AdmissionClaim) : Prop := claim ≠ .ok .repeat

/-- The calls after a claim: one arrival on the drawn shard, unless the claim is a repeat. -/
structure Counted (draw : Option Shard) (claim : Except StoreError AdmissionClaim)
    (counted : History) : Prop where
  recorded : ∀ shard, draw = some shard → CountsArrival claim →
    ∃ answer, counted = [answered (.addArrivals shard) answer]
  skipped : draw = none ∨ ¬ CountsArrival claim → counted = []

/-- An admission was granted and claimed, and its arrival was counted. -/
structure Claimed (d : Deployment) (requestId : RequestId) (secret : PossessionSecret) (now : ℕ)
    (draw : Option Shard) (history : History) (grant : Grant)
    (claim : Except StoreError AdmissionClaim) : Prop where
  granted : ∃ item row prequeue, AdmissionReads history requestId item row prequeue ∧
    d.decision item row prequeue secret now = .ok grant
  claimed : ∃ counted older,
    history = counted ++ answered (.claimAdmission requestId grant.position grant.digest) claim ::
      older ∧ ClaimsNothing older ∧ Counted draw claim counted

/-- What an admission's answers show when it returns. -/
def AdmitReport (d : Deployment) (requestId : RequestId) (secret : PossessionSecret)
    (viewerIp : Option String) (now : ℕ) (draw : Option Shard) (history : History) :
    Except StoreError Admission → Prop
  | .error _ => ClaimsNothing history
  | .ok .eventNotFound =>
      ClaimsNothing history ∧ answered (.getCounters true) (.ok none) ∈ history
  | .ok (.refused denied) =>
      ClaimsNothing history ∧ ∃ item row prequeue,
        AdmissionReads history requestId item row prequeue ∧
        d.decision item row prequeue secret now = .error denied
  | .ok (.admitted position _ credential) =>
      d.minting.key.sign (d.minting.session requestId viewerIp now) = some credential ∧
      ∃ grant claim, Claimed d requestId secret now draw history grant claim ∧
        grant.position = position
  | .ok .signFailed =>
      d.minting.key.sign (d.minting.session requestId viewerIp now) = none ∧
      ∃ grant claim, Claimed d requestId secret now draw history grant claim

section Admit

variable {d : Deployment} {requestId : RequestId} {secret : PossessionSecret}
  {viewerIp : Option String} {now : ℕ} {draw : Option Shard} {history : History}

theorem AdmissionReads.mono {item : Item} {row : Option PositionItem}
    {prequeue : Option PreQueueItem} {later : History}
    (reads : AdmissionReads history requestId item row prequeue) (extends_ : history ⊆ later) :
    AdmissionReads later requestId item row prequeue where
  counters := extends_ reads.counters
  position := extends_ reads.position
  skipped := reads.skipped
  prequeue_read := fun absent => extends_ (reads.prequeue_read absent)

/-- Counting the arrival of a claim that was just answered. -/
theorem countArrival_obeys {position : ℕ} {digest : SecretDigest}
    (claim : Except StoreError AdmissionClaim) {verdict : AdmissionClaim}
    (counts : verdict = .first ↔ CountsArrival claim) :
    Obeys (legal d (.generateToken requestId secret viewerIp now draw))
      (fun later _ => ∃ counted,
        later = counted ++ answered (.claimAdmission requestId position digest) claim :: history ∧
          Counted draw claim counted)
      (answered (.claimAdmission requestId position digest) claim :: history)
      (countArrival draw verdict) := by
  cases verdict with
  | «repeat» =>
      have repeated : ¬ CountsArrival claim := fun fresh => nomatch counts.mpr fresh
      exact ⟨[], rfl, fun _ _ fresh => absurd fresh repeated, fun _ => rfl⟩
  | first =>
      have fresh : CountsArrival claim := counts.mp rfl
      cases draw with
      | none => exact ⟨[], rfl, nofun, fun _ => rfl⟩
      | some shard =>
          have records : ∀ answer, Counted (some shard) claim [answered (.addArrivals shard) answer] :=
            fun answer => ⟨fun other same _ => ⟨answer, by cases same; rfl⟩,
              fun skip => (skip.elim nofun fun repeated => absurd fresh repeated)⟩
          refine obeys_request_bind ⟨⟨requestId, secret, viewerIp, now, some shard, rfl⟩,
            requestId, position, digest, claim, history, fresh, rfl⟩ ?_ ?_
          · exact fun error => ⟨_, rfl, records _⟩
          · exact fun payload => ⟨_, rfl, records _⟩

/-- The claim and what follows it. -/
theorem mint_obeys {grant : Grant} {item : Item} {row : Option PositionItem}
    {prequeue : Option PreQueueItem}
    (reads : AdmissionReads history requestId item row prequeue)
    (granted : d.decision item row prequeue secret now = .ok grant)
    (once : ClaimsNothing history) :
    Obeys (legal d (.generateToken requestId secret viewerIp now draw))
      (fun later admission =>
        AdmitReport d requestId secret viewerIp now draw later (.ok admission)) history
      (mint d.minting requestId viewerIp now draw grant) := by
  have lawful : legal d (.generateToken requestId secret viewerIp now draw) history
      (.claimAdmission requestId grant.position grant.digest) :=
    ⟨⟨secret, viewerIp, now, draw, item, row, prequeue, rfl, reads, granted⟩, once⟩
  have claimed : ∀ claim counted, Counted draw claim counted →
      Claimed d requestId secret now draw
        (counted ++ answered (.claimAdmission requestId grant.position grant.digest) claim ::
          history) grant claim := fun claim counted counts =>
    { granted := ⟨item, row, prequeue, reads.mono fun exchange member =>
        List.mem_append_right _ (List.mem_cons_of_mem _ member), granted⟩
      claimed := ⟨counted, history, rfl, once, counts⟩ }
  -- whatever was counted, signing is all that is left
  have signs : ∀ claim later, (∃ counted,
      later = counted ++ answered (.claimAdmission requestId grant.position grant.digest) claim ::
        history ∧ Counted draw claim counted) →
      ∀ signed, d.minting.key.sign (d.minting.session requestId viewerIp now) = signed →
        AdmitReport d requestId secret viewerIp now draw later (.ok (signed.elim .signFailed
          (.admitted grant.position (d.minting.session requestId viewerIp now).expiresAt))) := by
    rintro claim later ⟨counted, rfl, counts⟩ signed same
    cases signed with
    | some credential => exact ⟨same, grant, claim, claimed claim counted counts, rfl⟩
    | none => exact ⟨same, grant, claim, claimed claim counted counts⟩
  refine obeys_request_bind lawful (fun error => ?_) fun claim => ?_
  · refine (countArrival_obeys (.error error) ⟨fun _ => nofun, fun _ => rfl⟩).bind
      fun later _ counts => ?_
    dsimp only
    cases signed : d.minting.key.sign (d.minting.session requestId viewerIp now) with
    | some credential => exact signs _ later counts _ signed
    | none => exact signs _ later counts _ signed
  · have verdict : claim = .first ↔ CountsArrival (.ok claim) := by
      cases claim <;> simp [CountsArrival]
    refine (countArrival_obeys (.ok claim) verdict).bind fun later _ counts => ?_
    dsimp only
    cases signed : d.minting.key.sign (d.minting.session requestId viewerIp now) with
    | some credential => exact signs _ later counts _ signed
    | none => exact signs _ later counts _ signed

/-- **An admission conforms, and answers what was decided on its reads.** -/
theorem admit_obeys (requestId : RequestId) (secret : PossessionSecret)
    (viewerIp : Option String) (now : ℕ) (draw : Option Shard) :
    Obeys (legal d (.generateToken requestId secret viewerIp now draw))
      (AdmitReport d requestId secret viewerIp now draw) []
      (admitVisitor d.hmac d.digestOf d.minting requestId secret viewerIp now draw) := by
  -- the decision on the rows that were read
  have decides : ∀ {item row prequeue history program},
      AdmissionReads history requestId item row prequeue → ClaimsNothing history →
      (∀ denied, d.decision item row prequeue secret now = .error denied →
        program = pure (.ok (.refused denied))) →
      (∀ grant, d.decision item row prequeue secret now = .ok grant →
        program = do return .ok (← mint d.minting requestId viewerIp now draw grant)) →
      Obeys (legal d (.generateToken requestId secret viewerIp now draw))
        (AdmitReport d requestId secret viewerIp now draw) history program := by
    intro item row prequeue history program reads once refuses mints
    cases decided : d.decision item row prequeue secret now with
    | error denied =>
        rw [refuses denied decided]
        exact ⟨once, item, row, prequeue, reads, decided⟩
    | ok grant =>
        rw [mints grant decided]
        exact (mint_obeys reads decided once).bind fun later admission report => report
  refine obeys_request_bind trivial (fun error => ?_) fun item => ?_
  · simp [AdmitReport, ClaimsNothing]
  cases item with
  | none => simp [AdmitReport, ClaimsNothing]
  | some item =>
      refine obeys_request_bind trivial (fun error => ?_) fun row => ?_
      · simp [AdmitReport, ClaimsNothing]
      cases row with
      | some row =>
          refine decides (?_ : AdmissionReads _ requestId item (some row) none) ?_
            (fun denied decided => ?_) fun grant decided => ?_
          · exact ⟨by simp, by simp, fun _ => rfl, fun absent => by cases absent⟩
          · simp [ClaimsNothing]
          · simp only [Deployment.decision, Option.map_some] at decided
            simp only [Option.map_some, loadPrequeueUnless, Program.pure_eq, Program.done_bind, decided]
          · simp only [Deployment.decision, Option.map_some] at decided
            simp only [Option.map_some, loadPrequeueUnless, Program.pure_eq, Program.done_bind, decided]
      | none =>
          refine obeys_request_bind trivial (fun error => ?_) fun prequeue => ?_
          · simp [AdmitReport, ClaimsNothing]
          refine decides (?_ : AdmissionReads _ requestId item none prequeue) ?_
            (fun denied decided => ?_) fun grant decided => ?_
          · exact ⟨by simp, by simp, fun absurdly => absurd rfl absurdly, fun _ => by simp⟩
          · simp [ClaimsNothing]
          · simp only [decided]
          · simp only [decided]

end Admit

/-! ## The queue number -/

/-- What `/queue_num` answers, and the reads it answers it from. -/
inductive QueueNumReport (d : Deployment) (requestId : RequestId) (history : History) :
    Except StoreError QueueNumReply → Prop where
  | failed (error : StoreError) : QueueNumReport d requestId history (.error error)
  | missing (counters : answered (.getCounters false) (.ok none) ∈ history) :
      QueueNumReport d requestId history (.ok .eventNotFound)
  | counted {item : Item} {row : PreQueueItem} {position : ℕ}
      (counters : answered (.getCounters false) (.ok (some item)) ∈ history)
      (prequeue : answered (.getPrequeue requestId) (.ok (some row)) ∈ history)
      (resolved : queueNum d.hmac (d.parse item) row = .ok (.preQueue position)) :
      QueueNumReport d requestId history (.ok (.position position false))
  | unopened {item : Item} {row : PreQueueItem}
      (counters : answered (.getCounters false) (.ok (some item)) ∈ history)
      (prequeue : answered (.getPrequeue requestId) (.ok (some row)) ∈ history)
      (resolved : queueNum d.hmac (d.parse item) row = .error .notOpen) :
      QueueNumReport d requestId history (.ok .notOpen)
  | corrupt {item : Item} {row : PreQueueItem}
      (counters : answered (.getCounters false) (.ok (some item)) ∈ history)
      (prequeue : answered (.getPrequeue requestId) (.ok (some row)) ∈ history)
      (resolved : queueNum d.hmac (d.parse item) row = .error .badShard) :
      QueueNumReport d requestId history (.ok .corrupt)
  | elsewhere {item : Item} {prequeue : Option PreQueueItem} {row : Option PositionItem}
      (counters : answered (.getCounters false) (.ok (some item)) ∈ history)
      (prequeue_read : answered (.getPrequeue requestId) (.ok prequeue) ∈ history)
      (straggles : ∀ row, prequeue = some row →
        queueNum d.hmac (d.parse item) row = .ok .straggler)
      (position : answered (.getPosition false requestId) (.ok row) ∈ history) :
      QueueNumReport d requestId history
        (.ok (positionResponse (row.map PositionItem.queuePosition)))

/-- **`/queue_num` conforms, and answers what its reads say.** -/
theorem handleQueueNum_obeys (d : Deployment) (requestId : RequestId) :
    Obeys (legal d (.queueNum requestId)) (QueueNumReport d requestId) []
      (handleQueueNum d.hmac d.eventId requestId) := by
  refine obeys_call.mpr ⟨trivial, fun answer => ?_⟩
  rcases answer with error | item
  · exact .failed error
  cases item with
  | none => exact .missing (by simp)
  | some item =>
      refine obeys_call.mpr ⟨trivial, fun answer => ?_⟩
      rcases answer with error | prequeue
      · exact .failed error
      have fromPositions : (∀ row, prequeue = some row →
          queueNum d.hmac (d.parse item) row = .ok .straggler) →
          Obeys (legal d (.queueNum requestId)) (QueueNumReport d requestId)
            [answered (.getPrequeue requestId) (.ok prequeue),
              answered (.getCounters false) (.ok (some item))] (respondFromPosition requestId) := by
        intro straggles
        refine obeys_call.mpr ⟨trivial, fun answer => ?_⟩
        rcases answer with error | row
        · exact .failed error
        · exact .elsewhere (by simp) (by simp) straggles List.mem_cons_self
      cases prequeue with
      | none => exact fromPositions nofun
      | some row =>
          have counters : answered (.getCounters false) (.ok (some item)) ∈
              [answered (.getPrequeue requestId) (.ok (some row)),
                answered (.getCounters false) (.ok (some item))] := by simp
          dsimp only [Program.bind]
          cases resolved : queueNum d.hmac (Counters.fromItem d.eventId item) row with
          | ok found =>
              cases found with
              | preQueue position => exact .counted counters List.mem_cons_self resolved
              | straggler => exact fromPositions fun other same => by cases same; exact resolved
          | error error =>
              cases error with
              | notOpen => exact .unopened counters List.mem_cons_self resolved
              | badShard => exact .corrupt counters List.mem_cons_self resolved

end WaitingRoom
