import WaitingRoom.Concurrency.Counting
import WaitingRoom.Protocol.Rows
import Mathlib.Data.Set.Card

/-!
# Each visitor's arrival is counted once

Any number of admissions run for any number of visitors, and the claim and the `ADD` are two
writes. When no admission is in progress, the arrivals add up to the visitors that were
granted an admission if no call failed, and to no fewer if claims failed, landed or not
(`arrivals_counted`).

The claims that are to be counted stand between the two: in the history of every returned
admission they balance the records, and a visitor has at most one of them when none fails.
-/

set_option autoImplicit false

namespace WaitingRoom

open Dynamo Concurrency

/-- All arrivals that were recorded. -/
def Db.arrived (db : Db) : ℚ := ∑ shard, numberOf (db.arrivals shard) shardCountAttr

/-- The calls that record an arrival. -/
def Call.isArrival : Call → Bool
  | .addArrivals _ => true
  | _ => false

/-- The visitor of a claim whose arrival is to be counted. -/
def countedClaim : Exchange Tables → Option RequestId
  | ⟨.claimAdmission requestId _ _, answer⟩ =>
      match answer with
      | .ok .repeat => none
      | _ => some requestId
  | _ => none

/-- `decide` granted the admission: it was answered with a session, or with what comes after
a grant only, that signing failed. -/
def Granted : Except StoreError Admission → Prop
  | .ok (.admitted _ _ _) => True
  | .ok .signFailed => True
  | _ => False

/-- The visitors that were granted an admission at least once. -/
def grantedIds (c : Room) : Set RequestId :=
  {requestId | ∃ thread secret viewerIp now draw result,
    c.result thread = some (Job.generateToken requestId secret viewerIp now draw, .admission result) ∧
      Granted result}

/-- No admission is in progress. -/
def NoAdmissionRuns (c : Room) : Prop :=
  ∀ (thread : ℕ) requestId secret viewerIp now draw program,
    c.threads[thread]? = some ⟨.generateToken requestId secret viewerIp now draw, program⟩ →
      ∃ outcome, program = .done outcome

/-- Every draw of a shard succeeded. -/
def DrawsSucceed (c : Room) : Prop :=
  ∀ requestId secret viewerIp now draw, Job.generateToken requestId secret viewerIp now draw ∈ c.jobs →
    draw ≠ none

/-- No call of these failed. -/
def Succeed (calls : Call → Bool) (log : List RoomEntry) : Prop :=
  ∀ entry ∈ log, calls entry.exchange.call → ∃ payload, entry.exchange.answer = .ok payload

theorem Succeed.tail {calls : Call → Bool} {entry : RoomEntry} {log : List RoomEntry}
    (succeed : Succeed calls (entry :: log)) : Succeed calls log :=
  fun later member => succeed later (List.mem_cons_of_mem _ member)

theorem Succeed.answered {calls : Call → Bool} {log : List RoomEntry} (succeed : Succeed calls log)
    {entry : RoomEntry} (member : entry ∈ log) {call : Call} (same : entry.exchange.call = call)
    (counts : calls call) : ∃ payload, entry.exchange = answered call (.ok payload) := by
  subst same
  obtain ⟨payload, answers⟩ := succeed entry member counts
  exact ⟨payload, by rw [← answers]⟩

/-! ## Which calls count -/

theorem Call.isArrival_iff {call : Call} : call.isArrival ↔ ∃ shard, call = .addArrivals shard := by
  cases call <;> simp [Call.isArrival]

theorem countedClaim_eq_some {exchange : Exchange Tables} {requestId : RequestId} :
    countedClaim exchange = some requestId ↔ ∃ position digest answer,
      exchange = answered (.claimAdmission requestId position digest) answer ∧
        CountsArrival answer := by
  obtain ⟨call, answer⟩ := exchange
  cases call with
  | claimAdmission mine position digest =>
      rcases answer with error | (_ | _)
      · simp only [countedClaim, Option.some.injEq]
        constructor
        · rintro rfl
          exact ⟨position, digest, _, rfl, nofun⟩
        · rintro ⟨_, _, _, same, -⟩
          cases same
          rfl
      · simp only [countedClaim, Option.some.injEq]
        constructor
        · rintro rfl
          exact ⟨position, digest, _, rfl, nofun⟩
        · rintro ⟨_, _, _, same, -⟩
          cases same
          rfl
      · simp only [countedClaim]
        refine ⟨nofun, ?_⟩
        rintro ⟨_, _, _, same, counts⟩
        cases same
        exact absurd rfl counts
  | _ =>
      simp only [countedClaim]
      refine ⟨nofun, ?_⟩
      rintro ⟨_, _, _, same, -⟩
      cases same

/-- A visitor's claims that are to be counted, over the log. -/
def countedIds (log : List RoomEntry) : List RequestId :=
  log.filterMap fun entry => countedClaim entry.exchange

theorem mem_countedIds {log : List RoomEntry} {requestId : RequestId} :
    requestId ∈ countedIds log ↔ ∃ entry ∈ log, ∃ position digest answer,
      entry.exchange = answered (.claimAdmission requestId position digest) answer ∧
        CountsArrival answer := by
  simp only [countedIds, List.mem_filterMap, countedClaim_eq_some]

theorem length_countedIds (log : List RoomEntry) :
    (countedIds log).length = log.countP fun entry => (countedClaim entry.exchange).isSome :=
  List.length_filterMap_eq_countP

section Arrivals

variable {d : Deployment} {policy : RoomPolicy} {origin db : Db} {log older : List RoomEntry}
  {entry : RoomEntry} {requestId : RequestId}

/-! ## The records -/

/-- A recorded arrival adds one. -/
theorem Logged.arrived_of_record (logged : Logged d policy origin older entry) {shard : Shard}
    (same : entry.exchange = answered (.addArrivals shard) (.ok ())) :
    entry.after.arrived = entry.before.arrived + 1 := by
  obtain ⟨item, counted, after⟩ := perform_addArrivals_ok (logged.committed same rfl nofun)
  have added : ∀ other, numberOf (entry.after.arrivals other) shardCountAttr =
      numberOf (entry.before.arrivals other) shardCountAttr + if other = shard then 1 else 0 := by
    intro other
    have arrivals : entry.after.arrivals = Function.update entry.before.arrivals shard (some item) :=
      congrArg Db.arrivals after
    rw [arrivals]
    by_cases here : other = shard
    · subst here
      rw [Function.update_self, if_pos rfl]
      simp only [numberOf, Option.getD_some, counted, Option.bind_some, AttributeValue.asN]
    · rw [Function.update_of_ne here, if_neg here, add_zero]
  simp only [Db.arrived, added, Finset.sum_add_distrib, Finset.sum_ite_eq', Finset.mem_univ,
    if_true]

/-- The arrivals add up to the records, if these were answered. -/
theorem RoomTrace.arrived_eq (seeded : Seeded origin) (trace : RoomTrace d policy origin log db)
    (succeed : Succeed Call.isArrival log) :
    db.arrived = (log.countP fun entry => entry.exchange.call.isArrival : ℕ) := by
  revert succeed
  refine trace.rule (motive := fun log db => Succeed Call.isArrival log →
    db.arrived = (log.countP fun entry => entry.exchange.call.isArrival : ℕ)) ?_ ?_
  · intro _
    simp [Db.arrived, seeded.arrivals, numberOf]
  · intro entry older logged before succeed
    have earlier := before [] older _ rfl logged.earlier succeed.tail
    rw [List.countP_cons]
    by_cases records : entry.exchange.call.isArrival
    · obtain ⟨shard, call⟩ := Call.isArrival_iff.mp records
      obtain ⟨_, same⟩ := succeed.answered List.mem_cons_self call rfl
      rw [if_pos records, logged.arrived_of_record same, earlier, Nat.cast_add, Nat.cast_one]
    · have other : ¬ ∃ shard, entry.exchange.call = .addArrivals shard :=
        fun arrival => records (Call.isArrival_iff.mpr arrival)
      rw [if_neg records, Nat.add_zero, ← earlier, Db.arrived,
        logged.effect.arrivals_cases.resolve_right other, Db.arrived]

/-- An arrival is recorded after a claim of its thread. -/
theorem RoomTrace.claim_of_arrival (trace : RoomTrace d policy origin log db) {thread : ℕ}
    {newer older : History} {exchange : Exchange Tables}
    (split : history log thread = newer ++ exchange :: older)
    (records : exchange.call.isArrival) : ¬ ClaimsNothing older := by
  obtain ⟨newerLog, entry, olderLog, rfl, rfl, rfl, -, rfl⟩ := exists_split_of_history split
  have lawful := trace.logged.lawful
  obtain ⟨shard, call⟩ := Call.isArrival_iff.mp records
  rw [call] at lawful
  obtain ⟨requestId, position, digest, answer, oldest, -, same⟩ := lawful.after_claim
  intro nothing
  exact nothing _ (by rw [same]; exact List.mem_cons_self) requestId position digest rfl

/-- Where nothing is claimed, nothing is recorded. -/
theorem RoomTrace.no_arrivals (trace : RoomTrace d policy origin log db) {thread : ℕ}
    {newer older : History} (split : history log thread = newer ++ older)
    (nothing : ClaimsNothing older) : older.countP (fun exchange => exchange.call.isArrival) = 0 := by
  rw [List.countP_eq_zero]
  intro exchange member arrival
  obtain ⟨later, earlier, rfl⟩ := List.append_of_mem member
  refine trace.claim_of_arrival (show _ = (newer ++ later) ++ exchange :: earlier by rw [split, List.append_assoc]) arrival fun other inEarlier => ?_
  exact nothing other (List.mem_append_right _ (List.mem_cons_of_mem _ inEarlier))

theorem ClaimsNothing.countP_eq_zero {history : History} (nothing : ClaimsNothing history) :
    history.countP (fun exchange => (countedClaim exchange).isSome) = 0 := by
  rw [List.countP_eq_zero]
  intro exchange member counted
  obtain ⟨requestId, same⟩ := Option.isSome_iff_exists.mp counted
  obtain ⟨position, digest, answer, rfl, -⟩ := countedClaim_eq_some.mp same
  exact nothing _ member requestId position digest rfl

/-- In the history of an admission that was claimed, the records balance the counted claims. -/
theorem RoomTrace.claimed_balanced (trace : RoomTrace d policy origin log db) {thread : ℕ}
    {secret : PossessionSecret} {now : ℕ} {draw : Option Shard} {grant : Grant}
    {claim : Except StoreError AdmissionClaim} (drawn : draw ≠ none)
    (claimed : Claimed d requestId secret now draw (history log thread) grant claim) :
    ((history log thread).countP fun exchange => exchange.call.isArrival) =
      (history log thread).countP fun exchange => (countedClaim exchange).isSome := by
  obtain ⟨counted, older, whole, nothing, counts⟩ := claimed.claimed
  have noArrivals := trace.no_arrivals
    (show _ = (counted ++ [_]) ++ older by rw [whole, List.append_assoc]; rfl) nothing
  obtain ⟨shard, drew⟩ := Option.ne_none_iff_exists'.mp drawn
  rw [whole, List.countP_append, List.countP_append, List.countP_cons, List.countP_cons, noArrivals,
    nothing.countP_eq_zero]
  by_cases fresh : CountsArrival claim
  · obtain ⟨answer, rfl⟩ := counts.recorded shard drew fresh
    have counted : countedClaim (answered (.claimAdmission requestId grant.position grant.digest) claim) =
        some requestId := countedClaim_eq_some.mpr ⟨_, _, _, rfl, fresh⟩
    rw [counted]
    rfl
  · rw [counts.skipped (.inr fresh)]
    obtain rfl := not_not.mp fresh
    rfl

/-! ## The visitors -/

/-- An admitted row was admitted by a claim that is counted. -/
theorem RoomTrace.counted_of_admitted (seeded : Seeded origin)
    (trace : RoomTrace d policy origin log db) {row : PositionItem}
    (found : db.positions requestId = some row) (admitted : row.status = .admitted) :
    requestId ∈ countedIds log := by
  revert row
  refine trace.rule (motive := fun log db => ∀ {row : PositionItem},
    db.positions requestId = some row → row.status = .admitted → requestId ∈ countedIds log) ?_ ?_
  · intro row found
    rw [seeded.positions requestId] at found
    cases found
  · intro entry older logged before row found admitted
    have tail : requestId ∈ countedIds older → requestId ∈ countedIds (entry :: older) := by
      intro earlier
      obtain ⟨claim, member, same⟩ := mem_countedIds.mp earlier
      exact mem_countedIds.mpr ⟨claim, List.mem_cons_of_mem _ member, same⟩
    rcases logged.effect.positions_cases requestId with same | ⟨write, -, -, -, written⟩ |
      ⟨position, digest, row', call, admits, -⟩
    · exact tail (before [] older _ rfl logged.earlier (same ▸ found) admitted)
    · obtain rfl := Option.some.inj (found.symm.trans written)
      cases admitted
    · refine mem_countedIds.mpr ⟨entry, List.mem_cons_self, position, digest, ?_⟩
      obtain ⟨answer, same⟩ : ∃ answer, entry.exchange =
          answered (.claimAdmission requestId position digest) answer := by
        rw [← call]
        exact ⟨entry.exchange.answer, rfl⟩
      refine ⟨answer, same, ?_⟩
      -- a repeat would have admitted nobody
      rintro rfl
      have performed := congrArg Prod.fst (logged.committed same rfl nofun)
      simp only [perform, admits] at performed
      cases Except.ok.inj performed

/-- A visitor with a claim has one that is counted. -/
theorem RoomTrace.counted_of_claim (seeded : Seeded origin)
    (trace : RoomTrace d policy origin log db) (member : entry ∈ log) {position : ℕ}
    {digest : SecretDigest} {answer : Except StoreError AdmissionClaim}
    (same : entry.exchange = answered (.claimAdmission requestId position digest) answer) :
    requestId ∈ countedIds log := by
  by_cases counts : CountsArrival answer
  · exact mem_countedIds.mpr ⟨entry, member, position, digest, answer, same, counts⟩
  · obtain rfl := not_not.mp counts
    obtain ⟨newer, older, rfl, logged⟩ := trace.logged_of_mem member
    have performed := congrArg Prod.fst (logged.committed same rfl nofun)
    rcases perform_claimAdmission requestId position digest entry.before with ⟨row, -, first⟩ |
      ⟨⟨row, found, admitted⟩, -⟩
    · rw [first] at performed
      cases Except.ok.inj performed
    · obtain ⟨claim, inOlder, counted⟩ :=
        mem_countedIds.mp (logged.earlier.counted_of_admitted seeded found admitted)
      exact mem_countedIds.mpr
        ⟨claim, List.mem_append_right _ (List.mem_cons_of_mem _ inOlder), counted⟩

/-- When no claim fails, a visitor has at most one that is counted. -/
theorem RoomTrace.countedIds_nodup (trace : RoomTrace d policy origin log db)
    (succeed : Succeed (fun _ => true) log) :
    (countedIds log).Nodup ∧ ∀ requestId ∈ countedIds log, ∃ row,
      db.positions requestId = some row ∧ row.status = .admitted := by
  revert succeed
  refine trace.rule (motive := fun log db => Succeed (fun _ => true) log →
    (countedIds log).Nodup ∧ ∀ requestId ∈ countedIds log, ∃ row,
      db.positions requestId = some row ∧ row.status = .admitted) ?_ ?_
  · intro _
    exact ⟨List.nodup_nil, nofun⟩
  · intro entry older logged before succeed
    obtain ⟨distinct, admitted⟩ := before [] older _ rfl logged.earlier succeed.tail
    -- an admitted row stays
    have stays : ∀ requestId ∈ countedIds older, ∃ row,
        entry.after.positions requestId = some row ∧ row.status = .admitted := by
      intro requestId member
      obtain ⟨row, found, status⟩ := admitted requestId member
      obtain ⟨row', found', -, same⟩ := logged.grows.positions requestId row found
      obtain rfl := same status
      exact ⟨row', found', status⟩
    cases counted : countedClaim entry.exchange with
    | none =>
        have same : countedIds (entry :: older) = countedIds older := by
          rw [countedIds, List.filterMap_cons, counted]
          rfl
        rw [same]
        exact ⟨distinct, stays⟩
    | some requestId =>
        have same : countedIds (entry :: older) = requestId :: countedIds older := by
          rw [countedIds, List.filterMap_cons, counted]
          rfl
        obtain ⟨position, digest, answer, exchange, counts⟩ := countedClaim_eq_some.mp counted
        have call : entry.exchange.call = .claimAdmission requestId position digest := by
          rw [exchange]
        obtain ⟨claim, exchange'⟩ := succeed.answered List.mem_cons_self call rfl
        obtain rfl : answer = .ok claim := by
          rw [exchange] at exchange'
          exact eq_of_heq (Exchange.mk.inj exchange').2
        have performed := logged.committed exchange rfl nofun
        rcases perform_claimAdmission requestId position digest entry.before with
          ⟨row, admits, first⟩ | ⟨-, second⟩
        · have after : entry.after.positions =
              Function.update entry.before.positions requestId (some row) := by
            rw [first] at performed
            exact congrArg (fun reply => reply.2.positions) performed
          obtain ⟨-, status, -⟩ := admitRow_eq_some admits
          rw [same]
          refine ⟨List.nodup_cons.mpr ⟨fun again => ?_, distinct⟩, fun other member => ?_⟩
          · obtain ⟨row', found, status'⟩ := admitted requestId again
            simp only [admitRow, found, status'] at admits
            cases admits
          · rcases List.mem_cons.mp member with rfl | member
            · exact ⟨row, by rw [after, Function.update_self], status⟩
            · exact stays other member
        · rw [second] at performed
          exact absurd (congrArg Prod.fst performed) counts

end Arrivals

section Rooms

variable {d : Deployment} {policy : RoomPolicy} {origin : Db} {c : Room} {entry : RoomEntry}

/-- Whoever made a claim has returned, when no admission is in progress. -/
theorem RoomRun.admission_of_claim (run : RoomRun d policy origin c) (quiet : NoAdmissionRuns c)
    (member : entry ∈ c.log) {requestId : RequestId} {position : ℕ} {digest : SecretDigest}
    (call : entry.exchange.call = .claimAdmission requestId position digest) :
    ∃ secret viewerIp now draw result, c.result entry.thread =
        some (.generateToken requestId secret viewerIp now draw, .admission result) ∧
      AdmitReport d requestId secret viewerIp now draw (history c.log entry.thread) result := by
  obtain ⟨newer, older, -, logged⟩ := run.trace.logged_of_mem member
  have lawful := logged.lawful
  rw [call] at lawful
  obtain ⟨secret, viewerIp, now, draw, -, -, -, job, -⟩ := lawful.granted
  have started := System.Reaches.job_of_entry run member
  rw [job, Config.jobs, List.getElem?_map, Option.map_eq_some_iff] at started
  obtain ⟨⟨_, program⟩, thread, rfl⟩ := started
  obtain ⟨outcome, rfl⟩ := quiet _ _ _ _ _ _ _ thread
  obtain ⟨result, rfl, report⟩ := run.report thread
  exact ⟨secret, viewerIp, now, draw, result, Config.result_eq_some.mpr thread, report⟩

/-- What claimed was granted. -/
theorem AdmitReport.granted {requestId : RequestId} {secret : PossessionSecret}
    {viewerIp : Option String} {now : ℕ} {draw : Option Shard} {history : History}
    {result : Except StoreError Admission}
    (report : AdmitReport d requestId secret viewerIp now draw history result)
    (claims : ¬ ClaimsNothing history) : Granted result := by
  rcases result with error | (_ | _ | _ | _)
  · exact absurd report claims
  · exact trivial
  · exact absurd report.1 claims
  · exact absurd report.1 claims
  · exact trivial

/-- What was granted was claimed. -/
theorem AdmitReport.claimed {requestId : RequestId} {secret : PossessionSecret}
    {viewerIp : Option String} {now : ℕ} {draw : Option Shard} {history : History}
    {result : Except StoreError Admission}
    (report : AdmitReport d requestId secret viewerIp now draw history result)
    (granted : Granted result) :
    ∃ grant claim, Claimed d requestId secret now draw history grant claim := by
  rcases result with error | (_ | _ | _ | _)
  · exact granted.elim
  · obtain ⟨-, grant, claim, claimed, -⟩ := report
    exact ⟨grant, claim, claimed⟩
  · exact granted.elim
  · exact granted.elim
  · obtain ⟨-, grant, claim, claimed⟩ := report
    exact ⟨grant, claim, claimed⟩

/-- A visitor that was granted an admission has a claim that is counted. -/
theorem RoomRun.counted_of_granted (seeded : Seeded origin) (run : RoomRun d policy origin c)
    {requestId : RequestId} (member : requestId ∈ grantedIds c) : requestId ∈ countedIds c.log := by
  obtain ⟨thread, secret, viewerIp, now, draw, result, returned, granted⟩ := member
  obtain ⟨result', same, report⟩ := run.report (Config.result_eq_some.mp returned)
  obtain rfl := Outcome.admission.inj same
  obtain ⟨grant, claim, claimed⟩ := report.claimed granted
  obtain ⟨counted, older, whole, -, -⟩ := claimed.claimed
  have inHistory : answered (.claimAdmission requestId grant.position grant.digest) claim ∈
      history c.log thread := by
    rw [whole]
    exact List.mem_append_right _ List.mem_cons_self
  obtain ⟨entry, inLog, -, exchange⟩ := mem_history.mp inHistory
  exact run.trace.counted_of_claim seeded inLog exchange

/-- A visitor with a claim that is counted was granted an admission. -/
theorem RoomRun.granted_of_counted (run : RoomRun d policy origin c) (quiet : NoAdmissionRuns c)
    {requestId : RequestId} (member : requestId ∈ countedIds c.log) : requestId ∈ grantedIds c := by
  obtain ⟨entry, inLog, position, digest, answer, exchange, -⟩ := mem_countedIds.mp member
  have call : entry.exchange.call = .claimAdmission requestId position digest := by rw [exchange]
  obtain ⟨secret, viewerIp, now, draw, result, returned, report⟩ :=
    run.admission_of_claim quiet inLog call
  refine ⟨entry.thread, secret, viewerIp, now, draw, result, returned, report.granted fun nothing => ?_⟩
  exact nothing _ (mem_history_of_entry inLog) requestId position digest call

/-- When no admission is in progress, the records balance the claims that are counted. -/
theorem RoomRun.balanced (run : RoomRun d policy origin c) (quiet : NoAdmissionRuns c)
    (drawn : DrawsSucceed c) :
    (c.log.countP fun entry => entry.exchange.call.isArrival) = (countedIds c.log).length := by
  have inHistory : ∀ thread,
      ((history c.log thread).countP fun exchange => exchange.call.isArrival) =
        (history c.log thread).countP fun exchange => (countedClaim exchange).isSome := by
    intro thread
    by_cases claims : ∃ exchange ∈ history c.log thread, ∃ requestId position digest,
        exchange.call = .claimAdmission requestId position digest
    · obtain ⟨exchange, member, requestId, position, digest, call⟩ := claims
      obtain ⟨entry, inLog, rfl, rfl⟩ := mem_history.mp member
      obtain ⟨secret, viewerIp, now, draw, result, returned, report⟩ :=
        run.admission_of_claim quiet inLog call
      obtain ⟨grant, claim, claimed⟩ := report.claimed
        (report.granted fun nothing => nothing _ member requestId position digest call)
      refine run.trace.claimed_balanced (drawn requestId secret viewerIp now draw ?_) claimed
      exact List.mem_map.mpr
        ⟨_, List.mem_of_getElem? (Config.result_eq_some.mp returned), rfl⟩
    · have nothing : ClaimsNothing (history c.log thread) :=
        fun exchange member requestId position digest call =>
          claims ⟨exchange, member, requestId, position, digest, call⟩
      rw [run.trace.no_arrivals (List.nil_append _).symm nothing, nothing.countP_eq_zero]
  rw [length_countedIds]
  exact countP_log_eq inHistory

end Rooms

/-- **Each visitor's arrival is counted once.** When no admission is in progress and every draw
succeeded, the arrivals are exactly the visitors that were granted an admission if no call
failed, and at least these if every record was answered. An admission that made its claim is
answered with the session if it can be signed, repeat or not. -/
theorem arrivals_counted {d : Deployment} {origin : Db} (seeded : Seeded origin) {c : Room}
    (run : RoomRun d .free origin c) (quiet : NoAdmissionRuns c) (drawn : DrawsSucceed c) :
    (Succeed (fun _ => true) c.log → c.state.arrived = (grantedIds c).ncard) ∧
    (Succeed Call.isArrival c.log → ((grantedIds c).ncard : ℚ) ≤ c.state.arrived) ∧
    ∀ claim ∈ c.log, ∀ requestId position digest,
      claim.exchange.call = .claimAdmission requestId position digest →
        ∃ secret viewerIp now draw, ∀ credential,
          d.minting.key.sign (d.minting.session requestId viewerIp now) = some credential →
            ∃ place expiresAt, c.result claim.thread =
              some (.generateToken requestId secret viewerIp now draw,
                .admission (.ok (.admitted place expiresAt credential))) := by
  have arrived : Succeed Call.isArrival c.log → c.state.arrived = (countedIds c.log).length := by
    intro succeed
    rw [run.trace.arrived_eq seeded succeed, run.balanced quiet drawn]
  have visitors : grantedIds c = ((countedIds c.log).toFinset : Set RequestId) := by
    ext requestId
    rw [Finset.mem_coe, List.mem_toFinset]
    exact ⟨run.counted_of_granted seeded, run.granted_of_counted quiet⟩
  have granted : (grantedIds c).ncard = (countedIds c.log).toFinset.card := by
    rw [visitors, Set.ncard_coe_finset]
  refine ⟨fun succeed => ?_, fun succeed => ?_, ?_⟩
  · obtain ⟨distinct, -⟩ := run.trace.countedIds_nodup succeed
    rw [arrived fun entry member _ => succeed entry member rfl, granted,
      List.toFinset_card_of_nodup distinct]
  · rw [arrived succeed, granted]
    exact Nat.cast_le.mpr (List.toFinset_card_le _)
  · intro claim member requestId position digest call
    obtain ⟨secret, viewerIp, now, draw, result, returned, report⟩ :=
      run.admission_of_claim quiet member call
    have claims : ¬ ClaimsNothing (history c.log claim.thread) := fun nothing =>
      nothing _ (mem_history_of_entry member) requestId position digest call
    refine ⟨secret, viewerIp, now, draw, fun credential signed => ?_⟩
    rcases result with error | (⟨place, expiresAt, credential'⟩ | _ | _ | _)
    · exact absurd report claims
    · obtain rfl := Option.some.inj (signed.symm.trans report.1)
      exact ⟨place, expiresAt, returned⟩
    · exact absurd report.1 claims
    · exact absurd report.1 claims
    · cases signed.symm.trans report.1

/-- Every thread returned, no draw and no call failed. -/
def wentWell (c : Room) : Bool :=
  c.threads.all (fun thread => match thread.program with
    | .done _ => true
    | _ => false) &&
  c.jobs.all (fun job => match job with
    | .generateToken _ _ _ _ draw => draw.isSome
    | _ => true) &&
  c.log.all (fun entry => succeeded entry.exchange)

/-- Two tabs of one visitor race each other, and count one arrival. -/
theorem arrivals_counted_sample : ∃ c : Room, RoomRun Sample.deployment .free Sample.origin c ∧
    c.state.arrived = 1 ∧ (grantedIds c).ncard = 1 := by
  obtain ⟨c, run, good⟩ := System.exists_reaches_of_run
    (show ((room Sample.deployment).run .free (.initial Sample.origin)
      (.start (.joinBatch Sample.shard [⟨"m1", "alice"⟩]) :: .start (.openEvent Sample.seed .ascending) ::
        .start (.controllerPass 100 .ascending) ::
        .start (.generateToken Sample.alice Sample.aliceSecret none 110 (some Sample.shard)) ::
        .start (.generateToken Sample.alice Sample.aliceSecret none 111 (some Sample.shard)) ::
          (Sample.commits 0 5 ++ Sample.commits 1 11 ++ Sample.commits 2 12 ++ Sample.commits 3 3 ++
            Sample.commits 4 5 ++ Sample.commits 3 1))).any
        (fun c => wentWell c && decide (c.state.arrived = 1)) by decide +kernel)
  simp only [wentWell, Bool.and_eq_true, List.all_eq_true, decide_eq_true_eq] at good
  obtain ⟨⟨⟨done, draws⟩, answers⟩, arrived⟩ := good
  have quiet : NoAdmissionRuns c := by
    intro thread requestId secret viewerIp now draw program found
    have returned := done _ (List.mem_of_getElem? found)
    cases program with
    | done outcome => exact ⟨outcome, rfl⟩
    | call request next => cases returned
  have drawn : DrawsSucceed c := fun requestId secret viewerIp now draw member =>
    Option.isSome_iff_ne_none.mp (draws _ member)
  have succeed : Succeed (fun _ => true) c.log := by
    intro entry member _
    have answered := answers entry member
    cases answer : entry.exchange.answer with
    | ok payload => exact ⟨payload, rfl⟩
    | error error => simp [succeeded, answer] at answered
  have counted := (arrivals_counted Sample.origin_seeded run quiet drawn).1 succeed
  rw [arrived] at counted
  exact ⟨c, run, arrived, by exact_mod_cast counted.symm⟩

end WaitingRoom
