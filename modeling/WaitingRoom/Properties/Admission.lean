import WaitingRoom.Protocol.Visitor

/-!
# Who is admitted

An admission is a function of what it read (`admit_answers`): it mints exactly when the authoritative
row carries the digest of the presented secret, the operator and the phase admit, and the position
has been reached (`decision_eq_ok_iff`), and it writes nothing otherwise. A caller without the secret
is told the same whatever the counters and the rows hold (`decision_of_stranger`).
-/

set_option autoImplicit false

namespace WaitingRoom

open Dynamo Concurrency

/-- The calls that leave the tables as they are. -/
def Call.isRead : Call → Bool
  | .getCounters _ | .getShard _ | .getArrivals _ | .getPrequeue _ | .batchGetPrequeue _
  | .getPosition _ _ => true
  | _ => false

/-- The digest on the row that answers for a visitor: the position row when there is one, else the
pre-queue row. -/
def authoritativeDigest (row : Option PositionItem) (prequeue : Option PreQueueItem) :
    Option SecretDigest :=
  match row with
  | some row => row.h
  | none => prequeue.bind PreQueueItem.h

/-- The conditions of an admission, on what was read. -/
structure Admissible (d : Deployment) (item : Item) (row : Option PositionItem)
    (prequeue : Option PreQueueItem) (secret : PossessionSecret) (now : ℕ) : Prop where
  holder : authoritativeDigest row prequeue = some (d.digestOf secret)
  control : resolve (d.parse item).storedControl (d.parse item).failOpenUntil now = .open
  phase : (d.parse item).phase = .active
  reached : ∃ position,
    resolvePosition d.hmac (d.parse item) prequeue (row.map positionFromItem) = .ok position ∧
      position < (d.parse item).servingCounter

section Decision

variable {d : Deployment} {item : Item} {row : Option PositionItem} {prequeue : Option PreQueueItem}
  {secret : PossessionSecret} {now : ℕ}

theorem storedDigest_eq_ok {digest : SecretDigest} :
    storedDigest prequeue (row.map positionFromItem) = .ok (some digest) ↔
      authoritativeDigest row prequeue = some digest := by
  cases row with
  | some row => simp [storedDigest, authoritativeDigest, positionFromItem]
  | none => cases prequeue <;> simp [storedDigest, authoritativeDigest]

theorem checkAdmitting_eq_ok {counters : Counters} :
    checkAdmitting counters now = .ok () ↔
      resolve counters.storedControl counters.failOpenUntil now = .open ∧
        counters.phase = .active := by
  rw [checkAdmitting]
  cases resolve counters.storedControl counters.failOpenUntil now <;> simp

/-- **A decision grants exactly what is admissible.** -/
theorem decision_eq_ok_iff :
    (∃ grant, d.decision item row prequeue secret now = .ok grant) ↔
      Admissible d item row prequeue secret now := by
  constructor
  · rintro ⟨grant, granted⟩
    obtain ⟨stored, holder, resolved, reached⟩ := decide_eq_ok granted
    have admitting : checkAdmitting (d.parse item) now = .ok () := by
      by_contra refused
      cases checked : checkAdmitting (d.parse item) now with
      | ok => exact refused checked
      | error denied =>
          simp [Deployment.decision, Counters.decide, bind, Except.bind, stored, verifyPossession,
            holder, checked] at granted
    obtain ⟨control, phase⟩ := checkAdmitting_eq_ok.mp admitting
    exact ⟨by rw [storedDigest_eq_ok.mp stored, holder], control, phase, grant.position, resolved,
      reached⟩
  · rintro ⟨holder, control, phase, position, resolved, reached⟩
    refine ⟨⟨position, d.digestOf secret⟩, ?_⟩
    simp [Deployment.decision, Counters.decide, bind, Except.bind, storedDigest_eq_ok.mpr holder,
      verifyPossession, checkAdmitting_eq_ok.mpr ⟨control, phase⟩, resolved, reached]

/-- A caller who does not hold the secret learns only whether the visitor has a row. -/
theorem decision_of_stranger (stranger : authoritativeDigest row prequeue ≠ some (d.digestOf secret)) :
    d.decision item row prequeue secret now =
      .error (if row = none ∧ prequeue = none then .notRegistered else .notHolder) := by
  have refuses : ∀ {stored : Option SecretDigest}, stored ≠ some (d.digestOf secret) →
      verifyPossession d.digestOf secret stored = .error .notHolder := by
    intro stored other
    cases stored with
    | none => rfl
    | some digest => exact if_neg fun same => other (congrArg some same)
  cases row with
  | some row =>
      have other : row.h ≠ some (d.digestOf secret) := stranger
      simp [Deployment.decision, Counters.decide, bind, Except.bind, storedDigest, positionFromItem,
        refuses other]
  | none =>
      cases prequeue with
      | some prequeue =>
          have other : prequeue.h ≠ some (d.digestOf secret) := stranger
          simp [Deployment.decision, Counters.decide, bind, Except.bind, storedDigest, refuses other]
      | none => simp [Deployment.decision, Counters.decide, bind, Except.bind, storedDigest]

end Decision

/-! ## The whole admission -/

/-- What a granted visitor is given. -/
def Minting.minted (minting : Minting) (requestId : RequestId) (viewerIp : Option String) (now : ℕ)
    (grant : Grant) : Admission :=
  match minting.key.sign (minting.session requestId viewerIp now) with
  | some credential =>
      .admitted grant.position (minting.session requestId viewerIp now).expiresAt credential
  | none => .signFailed

/-- What an admission answers to what it read. -/
def Deployment.answer (d : Deployment) (requestId : RequestId) (secret : PossessionSecret)
    (viewerIp : Option String) (now : ℕ) (item : Item) (row : Option PositionItem)
    (prequeue : Option PreQueueItem) : Admission :=
  match d.decision item row prequeue secret now with
  | .error denied => .refused denied
  | .ok grant => d.minting.minted requestId viewerIp now grant

section Admit

variable {d : Deployment} {requestId : RequestId} {secret : PossessionSecret}
  {viewerIp : Option String} {now : ℕ} {draw : Option Shard} {base : History}

/-- What an admission may ask for: anything to read, and a write once it has read what is
admissible. -/
def WritesIfAdmissible (d : Deployment) (requestId : RequestId) (secret : PossessionSecret) (now : ℕ)
    (history : History) (call : Call) : Prop :=
  call.isRead = false → ∃ item row prequeue,
    AdmissionReads history requestId item row prequeue ∧ Admissible d item row prequeue secret now

/-- An admission answers what it read. -/
def AnswersReads (d : Deployment) (requestId : RequestId) (secret : PossessionSecret)
    (viewerIp : Option String) (now : ℕ) (history : History)
    (outcome : Except StoreError Admission) : Prop :=
  ∀ item row prequeue, AdmissionReads history requestId item row prequeue →
    outcome = .ok (d.answer requestId secret viewerIp now item row prequeue)

/-- Writes show an admission nothing about a visitor. -/
theorem AdmissionReads.of_writes {writes : History} {item : Item} {row : Option PositionItem}
    {prequeue : Option PreQueueItem}
    (reads : AdmissionReads (writes ++ base) requestId item row prequeue)
    (only : ∀ exchange ∈ writes, exchange.call.isRead = false) :
    AdmissionReads base requestId item row prequeue := by
  have below : ∀ {exchange : Exchange Tables}, exchange.call.isRead = true →
      exchange ∈ writes ++ base → exchange ∈ base := by
    intro exchange read member
    refine (List.mem_append.mp member).resolve_left fun write => ?_
    rw [only exchange write] at read
    cases read
  exact ⟨below rfl reads.counters, below rfl reads.position, reads.skipped,
    fun absent => below rfl (reads.prequeue_read absent)⟩

/-- After the decision only writes are left, and the answer does not depend on theirs. -/
theorem mint_writes {item : Item} {row : Option PositionItem} {prequeue : Option PreQueueItem}
    (reads : AdmissionReads base requestId item row prequeue)
    (admissible : Admissible d item row prequeue secret now) (grant : Grant) :
    Obeys (WritesIfAdmissible d requestId secret now)
      (fun later admission => admission = d.minting.minted requestId viewerIp now grant ∧
        ∃ writes, later = writes ++ base ∧ ∀ exchange ∈ writes, exchange.call.isRead = false) base
      (mint d.minting requestId viewerIp now draw grant) := by
  have lawful : ∀ writes call, WritesIfAdmissible d requestId secret now (writes ++ base) call :=
    fun writes call _ => ⟨item, row, prequeue,
      reads.mono fun exchange member => List.mem_append_right _ member, admissible⟩
  have signs : ∀ writes : History, (∀ exchange ∈ writes, exchange.call.isRead = false) →
      Obeys (WritesIfAdmissible d requestId secret now)
        (fun later admission => admission = d.minting.minted requestId viewerIp now grant ∧
          ∃ writes, later = writes ++ base ∧ ∀ exchange ∈ writes, exchange.call.isRead = false)
        (writes ++ base)
        (match d.minting.key.sign (d.minting.session requestId viewerIp now) with
          | some credential => pure (.admitted grant.position
              (d.minting.session requestId viewerIp now).expiresAt credential)
          | none => pure .signFailed) := by
    intro writes only
    cases signed : d.minting.key.sign (d.minting.session requestId viewerIp now) with
    | some credential => exact ⟨by rw [Minting.minted, signed], writes, rfl, only⟩
    | none => exact ⟨by rw [Minting.minted, signed], writes, rfl, only⟩
  have counts : ∀ answer verdict, Obeys (WritesIfAdmissible d requestId secret now)
      (fun later _ => ∃ writes, later = writes ++ base ∧
        ∀ exchange ∈ writes, exchange.call.isRead = false)
      (answered (.claimAdmission requestId grant.position grant.digest) answer :: base)
      (countArrival draw verdict) := by
    intro answer verdict
    have claim : ∀ exchange ∈ [answered (.claimAdmission requestId grant.position grant.digest) answer],
        exchange.call.isRead = false := by simp [Call.isRead]
    cases verdict with
    | «repeat» => exact ⟨[_], rfl, claim⟩
    | first =>
        cases draw with
        | none => exact ⟨[_], rfl, claim⟩
        | some shard =>
            refine obeys_request_bind (lawful [_] _) (fun error => ?_) fun payload => ?_
            · exact ⟨[_, _], rfl, by simp [Call.isRead]⟩
            · exact ⟨[_, _], rfl, by simp [Call.isRead]⟩
  refine obeys_request_bind (lawful [] _) (fun error => ?_) fun claim => ?_
  · refine (counts _ _).bind ?_
    rintro later - ⟨writes, rfl, only⟩
    exact signs writes only
  · refine (counts _ _).bind ?_
    rintro later - ⟨writes, rfl, only⟩
    exact signs writes only

/-- **An admission answers what it read, and writes only when that is admissible.** -/
theorem admit_answers (d : Deployment) (requestId : RequestId) (secret : PossessionSecret)
    (viewerIp : Option String) (now : ℕ) (draw : Option Shard) :
    Obeys (WritesIfAdmissible d requestId secret now) (AnswersReads d requestId secret viewerIp now) []
      (admitVisitor d.hmac d.digestOf d.minting requestId secret viewerIp now draw) := by
  -- the decision on the rows that were read, when the history holds no others
  have decides : ∀ {item row prequeue base}, AdmissionReads base requestId item row prequeue →
      (∀ item' row' prequeue', AdmissionReads base requestId item' row' prequeue' →
        item' = item ∧ row' = row ∧ prequeue' = prequeue) →
      Obeys (WritesIfAdmissible d requestId secret now)
        (AnswersReads d requestId secret viewerIp now) base
        (match d.decision item row prequeue secret now with
          | .error denied => pure (.ok (.refused denied))
          | .ok grant => do return .ok (← mint d.minting requestId viewerIp now draw grant)) := by
    intro item row prequeue base reads unique
    cases decided : d.decision item row prequeue secret now with
    | error denied =>
        intro item' row' prequeue' reads'
        obtain ⟨rfl, rfl, rfl⟩ := unique item' row' prequeue' reads'
        rw [Deployment.answer, decided]
    | ok grant =>
        refine (mint_writes reads (decision_eq_ok_iff.mp ⟨grant, decided⟩) grant).bind ?_
        rintro later admission ⟨rfl, writes, rfl, only⟩ item' row' prequeue' reads'
        obtain ⟨rfl, rfl, rfl⟩ := unique item' row' prequeue' (reads'.of_writes only)
        rw [Deployment.answer, decided]
  refine obeys_request_bind (fun write => by cases write) (fun error => ?_) fun item => ?_
  · rintro item row prequeue ⟨counters, -⟩
    simp at counters
  cases item with
  | none =>
      rintro item row prequeue ⟨counters, -⟩
      simp at counters
  | some item =>
      refine obeys_request_bind (fun write => by cases write) (fun error => ?_) fun row => ?_
      · rintro item row prequeue ⟨-, position, -⟩
        simp at position
      cases row with
      | some row =>
          refine decides (?_ : AdmissionReads _ requestId item (some row) none) ?_
          · exact ⟨by simp, by simp, fun _ => rfl, nofun⟩
          · rintro item' row' prequeue' ⟨counters, position, skipped, -⟩
            obtain rfl : row' = some row := by simpa using position
            exact ⟨by simpa using counters, rfl, skipped nofun⟩
      | none =>
          refine obeys_request_bind (fun write => by cases write) (fun error => ?_) fun prequeue => ?_
          · rintro item' row' prequeue' ⟨-, position, -, registration⟩
            obtain rfl : row' = none := by simpa using position
            simpa using registration rfl
          refine decides (?_ : AdmissionReads _ requestId item none prequeue) ?_
          · exact ⟨by simp, by simp, fun absurdly => absurd rfl absurdly, fun _ => by simp⟩
          · rintro item' row' prequeue' ⟨counters, position, -, registration⟩
            obtain rfl : row' = none := by simpa using position
            exact ⟨by simpa using counters, rfl, by simpa using registration rfl⟩

/-- An admission that returned wrote only what was admissible. -/
theorem admissible_of_write {history : History} {outcome : Except StoreError Admission}
    (returned : Returns (admitVisitor d.hmac d.digestOf d.minting requestId secret viewerIp now draw) []
      history outcome) {exchange : Exchange Tables} (member : exchange ∈ history)
    (write : exchange.call.isRead = false) :
    ∃ item row prequeue, AdmissionReads history requestId item row prequeue ∧
      Admissible d item row prequeue secret now := by
  rcases (admit_answers d requestId secret viewerIp now draw).legal_of_mem returned member with
    absurdly | ⟨newer, older, rfl, lawful⟩
  · cases absurdly
  · obtain ⟨item, row, prequeue, reads, admissible⟩ := lawful write
    exact ⟨item, row, prequeue, reads.mono fun other before =>
      List.mem_append_right _ (List.mem_cons_of_mem _ before), admissible⟩

/-- An admission that minted read what was admissible. -/
theorem admissible_of_minted {history : History} {outcome : Except StoreError Admission}
    (returned : Returns (admitVisitor d.hmac d.digestOf d.minting requestId secret viewerIp now draw) []
      history outcome)
    (minted : (∃ position expiresAt credential, outcome = .ok (.admitted position expiresAt credential)) ∨
      outcome = .ok .signFailed) :
    ∃ item row prequeue, AdmissionReads history requestId item row prequeue ∧
      Admissible d item row prequeue secret now := by
  have report := (admit_obeys requestId secret viewerIp now draw).returned returned
  rcases minted with ⟨position, expiresAt, credential, rfl⟩ | rfl
  · obtain ⟨-, grant, claim, claimed, -⟩ := report
    obtain ⟨item, row, prequeue, reads, granted⟩ := claimed.granted
    exact ⟨item, row, prequeue, reads, decision_eq_ok_iff.mp ⟨grant, granted⟩⟩
  · obtain ⟨-, grant, claim, claimed⟩ := report
    obtain ⟨item, row, prequeue, reads, granted⟩ := claimed.granted
    exact ⟨item, row, prequeue, reads, decision_eq_ok_iff.mp ⟨grant, granted⟩⟩

/-- What was read and is admissible is minted for, whatever the writes answer. -/
theorem minted_of_admissible {history : History} {outcome : Except StoreError Admission}
    (returned : Returns (admitVisitor d.hmac d.digestOf d.minting requestId secret viewerIp now draw) []
      history outcome) {item : Item} {row : Option PositionItem} {prequeue : Option PreQueueItem}
    (reads : AdmissionReads history requestId item row prequeue)
    (admissible : Admissible d item row prequeue secret now) :
    ∃ grant, d.decision item row prequeue secret now = .ok grant ∧
      outcome = .ok (d.minting.minted requestId viewerIp now grant) := by
  obtain ⟨grant, granted⟩ := decision_eq_ok_iff.mpr admissible
  refine ⟨grant, granted, ?_⟩
  rw [(admit_answers d requestId secret viewerIp now draw).returned returned item row prequeue reads,
    Deployment.answer, granted]

/-- **A caller without the secret is told the same, whatever the counters and the places are.** -/
theorem stranger_learns_nothing {history history' : History}
    {outcome outcome' : Except StoreError Admission}
    (returned : Returns (admitVisitor d.hmac d.digestOf d.minting requestId secret viewerIp now draw) []
      history outcome)
    (returned' : Returns (admitVisitor d.hmac d.digestOf d.minting requestId secret viewerIp now draw) []
      history' outcome') {item item' : Item} {row row' : Option PositionItem}
    {prequeue prequeue' : Option PreQueueItem}
    (reads : AdmissionReads history requestId item row prequeue)
    (reads' : AdmissionReads history' requestId item' row' prequeue')
    (rows : row.map PositionItem.h = row'.map PositionItem.h)
    (registrations : prequeue.map PreQueueItem.h = prequeue'.map PreQueueItem.h)
    (stranger : authoritativeDigest row prequeue ≠ some (d.digestOf secret)) : outcome = outcome' := by
  have digests : authoritativeDigest row prequeue = authoritativeDigest row' prequeue' := by
    cases row <;> cases row' <;> cases prequeue <;> cases prequeue' <;>
      simp_all [authoritativeDigest]
  have absent : (row = none ∧ prequeue = none) = (row' = none ∧ prequeue' = none) := by
    cases row <;> cases row' <;> cases prequeue <;> cases prequeue' <;> simp_all
  have answers := admit_answers d requestId secret viewerIp now draw
  rw [answers.returned returned item row prequeue reads,
    answers.returned returned' item' row' prequeue' reads', Deployment.answer, Deployment.answer,
    decision_of_stranger stranger, decision_of_stranger (digests ▸ stranger)]
  simp only [absent]

end Admit

/-- **Admission is decided by the right row, and a wrong secret learns nothing.** -/
theorem admitted_by_right_row {d : Deployment} {requestId : RequestId} {secret : PossessionSecret}
    {viewerIp : Option String} {now : ℕ} {draw : Option Shard} {history : History}
    {outcome : Except StoreError Admission}
    (returned : Returns (admitVisitor d.hmac d.digestOf d.minting requestId secret viewerIp now draw) []
      history outcome) :
    ((∃ exchange ∈ history, exchange.call.isRead = false) ∨
        (∃ position expiresAt credential, outcome = .ok (.admitted position expiresAt credential)) ∨
        outcome = .ok .signFailed →
      ∃ item row prequeue, AdmissionReads history requestId item row prequeue ∧
        Admissible d item row prequeue secret now) ∧
    (∀ item row prequeue, AdmissionReads history requestId item row prequeue →
      Admissible d item row prequeue secret now →
      ∃ grant, d.decision item row prequeue secret now = .ok grant ∧
        outcome = .ok (d.minting.minted requestId viewerIp now grant)) ∧
    ∀ item row prequeue, AdmissionReads history requestId item row prequeue →
      authoritativeDigest row prequeue ≠ some (d.digestOf secret) →
      ∀ history' outcome', Returns (admitVisitor d.hmac d.digestOf d.minting requestId secret viewerIp now draw)
          [] history' outcome' →
        ∀ item' row' prequeue', AdmissionReads history' requestId item' row' prequeue' →
          row.map PositionItem.h = row'.map PositionItem.h →
          prequeue.map PreQueueItem.h = prequeue'.map PreQueueItem.h → outcome = outcome' := by
  refine ⟨?_, fun item row prequeue reads admissible => minted_of_admissible returned reads admissible, ?_⟩
  · rintro (⟨exchange, member, write⟩ | minted)
    · exact admissible_of_write returned member write
    · exact admissible_of_minted returned minted
  · intro item row prequeue reads stranger history' outcome' returned' item' row' prequeue' reads' rows
      registrations
    exact stranger_learns_nothing returned returned' reads reads' rows registrations stranger

namespace Sample

/-- The counters of an event that serves its first five positions. -/
def served : Item :=
  (Item.empty.put "phase" (.S Phase.active.asWireStr)).put "serving_counter" (.N 5)

/-- The store answers with the served event and Alice's live place. -/
def aliceReached : (call : Call) → Except StoreError (Payload call)
  | .getCounters _ => .ok (some served)
  | .getPosition _ _ => .ok (some ⟨alice, 0, .issued, some aliceDigest⟩)
  | .claimAdmission _ _ _ => .ok .first
  | _ => .error ⟨"timeout"⟩

/-- Alice asks to be admitted, with a secret. -/
def aliceAdmission (secret : PossessionSecret) : Program Tables (Except StoreError Admission) :=
  admitVisitor deployment.hmac deployment.digestOf deployment.minting alice secret none 0 (some shard)

end Sample

/-- Alice is admitted with her secret, though the record of her arrival fails. -/
theorem admitted_by_right_row_sample : ∃ history,
    Returns (Sample.aliceAdmission Sample.aliceSecret) [] history (.ok (.admitted 0 3600 "session")) ∧
    ∃ item row prequeue, AdmissionReads history Sample.alice item row prequeue ∧
      Admissible Sample.deployment item row prequeue Sample.aliceSecret 0 := by
  obtain ⟨history, returned⟩ :=
    (Sample.aliceAdmission Sample.aliceSecret).exists_returns Sample.aliceReached []
  have told : (Sample.aliceAdmission Sample.aliceSecret).play Sample.aliceReached =
      .ok (.admitted 0 3600 "session") := by rfl
  rw [told] at returned
  exact ⟨history, returned, (admitted_by_right_row returned).1 (.inr (.inl ⟨0, 3600, "session", rfl⟩))⟩

end WaitingRoom
