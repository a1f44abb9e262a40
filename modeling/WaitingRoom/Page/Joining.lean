import WaitingRoom.Page.PollLoop

/-!
# A page that gives up

A page claims its place with a request to join, and asks for its number. What it is seen to do is
logged (`Logged`): the requests it sends, the one that is accepted, and the answers about its number.
Whatever is answered and whatever the storage holds, one page sends at most thirty-two requests to
join; after one was accepted it sends another only once eight answers in a row knew no place; and
thirty-two such answers in a row have stopped it (`joins_bounded`). An answer that is not JSON is no
answer here: the script takes it for a request that failed in flight, and neither counts it nor starts
to count again (`other_answers_do_not_count`).
-/

set_option autoImplicit false

namespace WaitingRoom.Page

open Text Edge Concurrency

/-- A chain that makes the digest of its request to join. -/
def Awaiting.digests : Awaiting → Bool
  | .digest _ => true
  | _ => false

/-! ## The log -/

/-- What a page is seen to do. -/
inductive Note where
  /-- A request to join is sent. -/
  | posted
  /-- The ingest accepted one. -/
  | accepted
  /-- An answer about the number, with its status, and whether it is JSON. -/
  | number (status : ℕ) (json : Bool)
  deriving DecidableEq

/-- Whether an answer accepts a request to join. -/
def Answer.accepts : Answer → Bool
  | .resolved response => !response.waf && decide (200 ≤ response.status ∧ response.status < 300)
  | .rejected => false

/-- What an answer is noted as. -/
def heard (answer : Answer) : Awaiting → List Note
  | .join _ => if answer.accepts then [.accepted] else []
  | .queueNum _ =>
      match answer with
      | .resolved response => if response.waf then [] else [.number response.status response.body.isSome]
      | .rejected => []
  | _ => []

/-- A request to join that a chain goes on with. -/
def posts : Except JsError Progress × State → List Note
  | (.ok (.awaiting (.join _)), _) => [.posted]
  | _ => []

theorem heard_cases (answer : Answer) (promise : Awaiting) :
    heard answer promise = [] ∨ ∃ note, heard answer promise = [note] ∧ note ≠ .posted := by
  cases promise with
  | join next =>
      rw [heard]
      split_ifs
      · exact .inr ⟨_, rfl, nofun⟩
      · exact .inl rfl
  | queueNum s =>
      cases answer with
      | rejected => exact .inl rfl
      | resolved response =>
          simp only [heard]
          split_ifs
          · exact .inl rfl
          · exact .inr ⟨_, rfl, nofun⟩
  | _ => exact .inl rfl

/-- What is noted of an event, latest first. -/
def notes (moment : Moment) (event : Event) (page : State) : List Note :=
  match event with
  | .settle chain answer =>
      match page.chains[chain]? with
      | some promise =>
          posts ((resume moment answer promise).exec { page with chains := page.chains.eraseIdx chain })
            ++ heard answer promise
      | none => []
  | _ => []

/-- A page and its log, latest first. -/
inductive Logged : List Note → State → Prop where
  | load (search : Units) (subtle hidden : Bool) (moment : Moment) :
      Logged [] (load search subtle hidden moment)
  | step {log : List Note} {page page' : State} (logged : Logged log page) {moment : Moment}
      {event : Event} (steps : step moment event page = some page') :
      Logged (notes moment event page ++ log) page'

/-! ## Answers in a row -/

/-- The statuses of the JSON answers about the number. -/
def statuses (log : List Note) : List ℕ :=
  log.filterMap fun note =>
    match note with
    | .number status true => some status
    | _ => none

/-- The latest answers knew no place. -/
def Missing (count : ℕ) (log : List Note) : Prop :=
  (statuses log).take count = List.replicate count 404

/-- How many answers in a row know no place, up to the latest. -/
def misses (log : List Note) : ℕ := ((statuses log).takeWhile (· = 404)).length

theorem missing_iff (count : ℕ) (log : List Note) : Missing count log ↔ count ≤ misses log := by
  rw [Missing, misses]
  induction statuses log generalizing count with
  | nil => cases count <;> simp [List.replicate_succ]
  | cons status rest ih =>
      cases count with
      | zero => simp
      | succ count =>
          by_cases missing : status = 404
          · simp [missing, List.replicate_succ, ih]
          · simp [missing, List.replicate_succ]

@[simp] theorem misses_posted (log : List Note) : misses (.posted :: log) = misses log := rfl

@[simp] theorem misses_accepted (log : List Note) : misses (.accepted :: log) = misses log := rfl

@[simp] theorem misses_other (status : ℕ) (log : List Note) :
    misses (.number status false :: log) = misses log := rfl

@[simp] theorem misses_missed (log : List Note) :
    misses (.number 404 true :: log) = misses log + 1 := rfl

theorem misses_found {status : ℕ} (found : status ≠ 404) (log : List Note) :
    misses (.number status true :: log) = 0 := by
  have shown : statuses (.number status true :: log) = status :: statuses log := rfl
  rw [misses, shown, List.takeWhile_cons_of_neg (by simpa using found)]
  rfl

/-- Behind the latest accepted request, eight answers in a row knew no place. -/
def Forgotten (log : List Note) : Prop :=
  ∀ between earlier, log = between ++ .accepted :: earlier →
    ∃ after before, between = after ++ .number 404 true :: before ∧
      Missing 8 (.number 404 true :: before ++ .accepted :: earlier)

theorem forgotten_nil : Forgotten [] := fun between earlier split => by simp at split

theorem Forgotten.cons {log : List Note} (forgotten : Forgotten log) {note : Note}
    (other : note ≠ .accepted) : Forgotten (note :: log) := by
  intro between earlier split
  cases between with
  | nil => exact absurd (List.cons.inj split).1 other
  | cons first between =>
      obtain ⟨rfl, tail⟩ := List.cons.inj split
      obtain ⟨after, before, rfl, missing⟩ := forgotten between earlier tail
      exact ⟨note :: after, before, rfl, missing⟩

/-- Eight answers in a row that end here. -/
theorem forgotten_missed {log : List Note} (many : 8 ≤ misses log + 1) :
    Forgotten (.number 404 true :: log) := by
  intro between earlier split
  cases between with
  | nil => simp at split
  | cons first between =>
      obtain ⟨rfl, rfl⟩ := List.cons.inj split
      exact ⟨[], between, rfl, (missing_iff 8 _).mpr many⟩

/-! ## The books -/

/-- How many requests to join may have been sent. -/
def room (page : State) : ℕ :=
  8 * min page.rejoinCycles 3 + if page.joined then 8 else page.joinAttempts

/-- What the counters of a page say of its log: of the requests it sent, of the answers in a row that
knew no place, and of whether a request that was accepted has been given up. -/
structure Books (sent run : ℕ) (forgotten : Prop) (page : State) : Prop where
  attempts : page.joinAttempts ≤ 8
  sent : sent ≤ room page
  misses : page.misses ≤ run
  claimed : page.joined = true ∨ forgotten
  counted : page.stopped = true ∨
    (page.misses ≤ 7 ∧ page.rejoinCycles ≤ 3 ∧ run ≤ 8 * page.rejoinCycles + page.misses)
  unknown : page.stopped = true ∨ run = 0 ∨ page.knownPosition = .null

/-- What only the joining and the answers about the number change. -/
def counters (page : State) : Bool × ℕ × ℕ × ℕ × JsValue :=
  (page.joined, page.joinAttempts, page.rejoinCycles, page.misses, page.knownPosition)

section Books

variable {sent run : ℕ} {forgotten : Prop} {page page' : State}

theorem Books.of_counters (same : counters page' = counters page)
    (stops : page.stopped = true → page'.stopped = true) (books : Books sent run forgotten page) :
    Books sent run forgotten page' := by
  simp only [counters, Prod.mk.injEq] at same
  obtain ⟨joined, attempts, cycles, misses, known⟩ := same
  constructor
  · rw [attempts]
    exact books.attempts
  · rw [room, joined, attempts, cycles]
    exact books.sent
  · rw [misses]
    exact books.misses
  · rw [joined]
    exact books.claimed
  · rw [misses, cycles]
    exact books.counted.imp_left stops
  · rw [known]
    exact books.unknown.imp_left stops

theorem counters_clearTimer : counters page.clearTimer = counters page := by
  rw [State.clearTimer]
  split <;> rfl

theorem counters_schedule : counters page.schedule = counters page := by
  rw [State.schedule]
  split_ifs
  · rfl
  · exact counters_clearTimer
  · exact counters_clearTimer
  · exact counters_clearTimer

theorem Books.schedule (books : Books sent run forgotten page) :
    Books sent run forgotten page.schedule := by
  have same : standing page.schedule = standing page := standing_schedule
  exact books.of_counters counters_schedule fun stopped => (Prod.mk.inj same).1.trans stopped

theorem Books.stop (books : Books sent run forgotten page) : Books sent run forgotten page.stop :=
  books.of_counters counters_clearTimer fun _ => rfl

theorem Books.navigate (destination : Destination) (books : Books sent run forgotten page) :
    Books sent run forgotten (page.navigate destination) := by
  have same : counters (page.navigate destination) = counters page := rfl
  exact books.of_counters same id

/-- A place is claimed. -/
theorem Books.claim (books : Books sent run forgotten page) :
    Books sent run False { page with joined := true } where
  attempts := books.attempts
  sent := by
    have room := books.sent
    have attempts := books.attempts
    rw [Page.room] at room ⊢
    simp only [if_true]
    split_ifs at room <;> omega
  misses := books.misses
  claimed := .inl rfl
  counted := books.counted
  unknown := books.unknown

/-- A request to join is made. -/
theorem Books.attempt (unclaimed : page.joined = false) (few : page.joinAttempts < 8)
    (books : Books sent run forgotten page) :
    Books (sent + 1) run forgotten { page with joinAttempts := page.joinAttempts + 1 } ∧ forgotten := by
  refine ⟨⟨few, ?_, books.misses, books.claimed, books.counted, books.unknown⟩, ?_⟩
  · have room := books.sent
    rw [Page.room] at room ⊢
    simp only [unclaimed, Bool.false_eq_true, if_false] at room ⊢
    omega
  · exact books.claimed.resolve_left (by simp [unclaimed])

/-- Another answer knew no place. -/
theorem Books.miss (few : page.misses + 1 < 8) (null : page.knownPosition = .null)
    (books : Books sent run forgotten page) :
    Books sent (run + 1) forgotten { page with misses := page.misses + 1 } where
  attempts := books.attempts
  sent := books.sent
  misses := Nat.succ_le_succ books.misses
  claimed := books.claimed
  counted := by
    refine books.counted.imp_right fun ⟨_, cycles, row⟩ => ⟨Nat.le_of_lt_succ few, cycles, ?_⟩
    simp only
    omega
  unknown := .inr (.inr null)

/-- The eighth knew no place, and the claim is dropped. -/
theorem Books.forget (many : 8 ≤ page.misses + 1) (again : ¬ 3 < page.rejoinCycles + 1)
    (books : Books sent run forgotten page) :
    Books sent (run + 1) (8 ≤ run + 1) (forgetJoin
      { page with misses := page.misses + 1, rejoinCycles := page.rejoinCycles + 1 }) where
  attempts := Nat.zero_le 8
  sent := by
    have sent := books.sent
    have attempts := books.attempts
    rw [room] at sent ⊢
    simp only [forgetJoin, forgetPosition, Bool.false_eq_true, if_false]
    split_ifs at sent <;> omega
  misses := Nat.zero_le _
  claimed := .inr (many.trans (Nat.succ_le_succ books.misses))
  counted := by
    refine books.counted.imp_right fun ⟨last, _, row⟩ => ⟨Nat.zero_le 7, Nat.le_of_not_lt again, ?_⟩
    simp only [forgetJoin, forgetPosition]
    omega
  unknown := .inr (.inr rfl)

/-- The eighth knew no place, once too often. -/
theorem Books.giveUp (books : Books sent run forgotten page) :
    Books sent (run + 1) forgotten
      { page with misses := page.misses + 1, rejoinCycles := page.rejoinCycles + 1 }.stop := by
  have counted : Books sent (run + 1) forgotten
      { page with misses := page.misses + 1, rejoinCycles := page.rejoinCycles + 1, stopped := true } := by
    refine ⟨books.attempts, ?_, Nat.succ_le_succ books.misses, books.claimed, .inl rfl, .inl rfl⟩
    have sent := books.sent
    rw [room] at sent ⊢
    simp only
    split_ifs at sent ⊢ <;> omega
  exact counted.of_counters (by exact counters_clearTimer) fun _ => rfl

theorem Books.mono {sent' : ℕ} {forgotten' : Prop} (fewer : sent' ≤ sent)
    (weaker : forgotten → forgotten') (books : Books sent run forgotten page) :
    Books sent' run forgotten' page :=
  ⟨books.attempts, fewer.trans books.sent, books.misses, books.claimed.imp_right weaker, books.counted,
    books.unknown⟩

end Books

/-! ## What each answer does to the books -/

section Answers

variable {moment : Moment} {answer : Answer} {sent run : ℕ} {forgotten : Prop}

/-- A chain that is about to join has its request in the books, and no accepted request is left. A chain
that asks for its number knows none. -/
def Kept (sent run : ℕ) (forgotten : Prop) : Progress → State → Prop
  | .awaiting promise, page =>
      Books (sent + if promise.joins then 1 else 0) run forgotten page ∧
        (promise.joins = true → forgotten) ∧ ∀ s, promise = .queueNum s → page.knownPosition = .null
  | .settled, page => Books sent run forgotten page

theorem Kept.mono {forgotten' : Prop} (weaker : forgotten → forgotten') {progress : Progress}
    {page : State} (kept : Kept sent run forgotten progress page) :
    Kept sent run forgotten' progress page := by
  cases progress with
  | awaiting promise => exact ⟨kept.1.mono le_rfl weaker, fun joins => weaker (kept.2.1 joins), kept.2.2⟩
  | settled => exact Books.mono le_rfl weaker kept

theorem scheduleNext_books :
    Script.Meets (Books sent run forgotten) scheduleNext (Kept sent run forgotten)
      (Books sent run forgotten) :=
  .update_step (fun _ books => books.schedule) (.pure fun _ books => books)

theorem renewWafToken_books :
    Script.Meets (Books sent run forgotten) (renewWafToken moment) (fun _ => Books sent run forgotten)
      (Books sent run forgotten) := by
  refine .update_step (fun _ books => books.stop) (.read_step fun mark => ?_)
  cases mark with
  | none => exact .update fun _ books => books.navigate .verify
  | some last =>
      refine .ite (fun _ => .pure fun _ books => books) fun _ => ?_
      exact .update fun _ books => books.navigate .verify

/-- What the network refuses accepts nothing, and what it lets through changes nothing. -/
theorem checkWaf_books {before : State → Prop} (keeps : ∀ page, before page → Books sent run forgotten page) :
    Script.Meets before (checkWaf moment answer)
      (fun response page => before page ∧ answer = .resolved response ∧ response.waf = false)
      (fun page => Books sent run forgotten page ∧ answer.accepts = false) := by
  cases answer with
  | rejected => exact .throw fun page here => ⟨keeps page here, rfl⟩
  | resolved response =>
      refine .ite (fun marked => ?_) fun passes => .pure fun _ here => ⟨here, rfl, by simpa using passes⟩
      refine .bind (renewWafToken_books.mono keeps (fun _ _ books => books) ?_) fun _ => ?_
      · exact fun _ books => ⟨books, by simp [Answer.accepts, marked]⟩
      · exact .throw fun _ books => ⟨books, by simp [Answer.accepts, marked]⟩

/-- What is read of an answer is a response that is JSON. -/
theorem getJSON_books {before : State → Prop} (keeps : ∀ page, before page → Books sent run forgotten page) :
    Script.Meets before (getJSON moment answer)
      (fun result page => before page ∧ ∃ response, answer = .resolved response ∧
        response.waf = false ∧ response.body.isSome ∧ result.1 = response.status)
      (Books sent run forgotten) := by
  refine .bind ((checkWaf_books keeps).mono (fun _ here => here) (fun _ _ here => here) fun _ here => here.1)
    fun response => ?_
  cases body : response.body with
  | none => exact .throw fun page here => keeps page here.1
  | some value =>
      exact .pure fun _ here => ⟨here.1, response, here.2.1, here.2.2, by rw [body]; rfl, rfl⟩

theorem postJSON_books :
    Script.Meets (Books sent run forgotten) (postJSON moment answer)
      (fun result page => Books sent run forgotten page ∧ ∃ response, answer = .resolved response ∧
        response.waf = false ∧ result.1 = response.status)
      (fun page => Books sent run forgotten page ∧ answer.accepts = false) :=
  .bind (checkWaf_books fun _ books => books) fun response =>
    .pure fun _ here => ⟨here.1, response, here.2.1, here.2.2, rfl⟩

/-- A request that is made is entered, and none that was accepted is left. -/
theorem join_books {next : AfterJoin} :
    Script.Meets (Books sent run forgotten) (join moment next)
      (fun promise page =>
        match promise with
        | some promise => promise.joins = true ∧ Books (sent + 1) run forgotten page ∧ forgotten
        | none => Books sent run forgotten page)
      (Books sent run forgotten) := by
  refine .read_bind fun page => .ite (fun _ => ?_) fun unclaimed => ?_
  · refine .update_bind (Books sent run forgotten) ?_ (.pure fun _ books => books)
    exact fun _ here => here.1.claim.mono le_rfl False.elim
  have stops : Script.Meets (fun state => Books sent run forgotten state ∧ id state = page)
      (do Script.update State.stop; return none : Work (Option Awaiting))
      (fun promise page =>
        match promise with
        | some promise => promise.joins = true ∧ Books (sent + 1) run forgotten page ∧ forgotten
        | none => Books sent run forgotten page)
      (Books sent run forgotten) :=
    .update_bind (Books sent run forgotten) (fun _ here => here.1.stop) (.pure fun _ books => books)
  refine .ite (fun _ => .pure fun _ here => here.1) fun _ => .ite (fun _ => stops) fun few => ?_
  refine .ite (fun _ => stops) fun _ => ?_
  have free : page.joined = false := by
    cases joined : page.joined with
    | true => simp [joined] at unclaimed
    | false => rfl
  refine .update_bind (fun page => Books (sent + 1) run forgotten page ∧ forgotten) ?_ ?_
  · rintro _ ⟨books, rfl⟩
    exact books.attempt free (by simpa using few)
  · cases page.digest with
    | none => exact .pure fun _ here => ⟨rfl, here⟩
    | some made =>
        cases made with
        | true => exact .pure fun _ here => ⟨rfl, here⟩
        | false => exact .throw fun _ here => here.1.mono (Nat.le_succ sent) id

/-- A request that is accepted claims the place. -/
theorem joinAnswered_books :
    Script.Meets (Books sent run forgotten) (joinAnswered moment answer)
      (fun _ => Books sent run (forgotten ∧ answer.accepts = false))
      (Books sent run (forgotten ∧ answer.accepts = false)) := by
  have refused : ∀ page, Books sent run forgotten page ∧ answer.accepts = false →
      Books sent run (forgotten ∧ answer.accepts = false) page := fun _ here =>
    here.1.mono le_rfl fun forgotten => ⟨forgotten, here.2⟩
  refine .bind (postJSON_books.mono (fun _ books => books) (fun _ _ here => here) refused) fun result => ?_
  refine .ite (fun accepted => .update fun page here => ?_) fun other => .update fun page here => ?_
  · have cleared : Books sent run False { page with joined := true, joinAttempts := 0 } := by
      have claimed := here.1.claim
      exact ⟨Nat.zero_le 8, claimed.sent, claimed.misses, claimed.claimed, claimed.counted, claimed.unknown⟩
    exact cleared.mono le_rfl False.elim
  · obtain ⟨books, response, rfl, -, status⟩ := here
    refine refused _ ⟨books.of_counters (by rfl) (by exact id), ?_⟩
    rw [status] at other
    rw [Answer.accepts, Bool.and_eq_false_iff]
    exact .inr (by simpa using other)

theorem redeem_books :
    Script.Meets (Books sent run forgotten) redeem (Kept sent run forgotten)
      (Books sent run forgotten) := by
  refine .read_step fun admitting => .ite (fun _ => .pure fun _ books => books) fun _ => ?_
  refine .update_step (fun _ books => books.of_counters (by rfl) (by exact id)) (.pure fun _ books => ⟨books, nofun, nofun⟩)

theorem afterRedeem_books :
    Script.Meets (Books sent run forgotten) afterRedeem (Kept sent run forgotten)
      (Books sent run forgotten) :=
  .read_step fun _ => .ite (fun _ => .pure fun _ books => books) fun _ => scheduleNext_books

theorem tokenAnswered_books {status : ℕ} {body : JsValue} :
    Script.Meets (Books sent run forgotten) (tokenAnswered moment status body)
      (fun _ => Books sent run forgotten) (Books sent run forgotten) := by
  refine .ofExcept_step fun admits => .ite (fun _ => ?_) fun _ => ?_
  · refine .read_step fun search => .ite (fun _ => ?_) fun _ => .ite (fun _ => ?_) fun _ => ?_
    · exact .update fun _ books => books.stop
    · exact .throw fun _ books => books
    · exact .update fun _ books => books.navigate .next
  · refine .update_step (fun _ books => books.of_counters (by rfl) (by exact id)) (.ite (fun _ => ?_) fun _ => ?_)
    · exact .update fun _ books => books.stop
    · exact .pure fun _ books => books

/-- An answer that knows the place ends the row. -/
theorem queueAnswered_found {s body : JsValue} {status : ℕ} (found : status ≠ 404) :
    Script.Meets (fun page => Books sent run forgotten { page with misses := 0 } ∧
        (page.stopped = true ∨ run = 0))
      (queueAnswered moment s status body) (Kept sent run forgotten) (Books sent run forgotten) := by
  refine .ite (fun missed => absurd missed found) fun _ => ?_
  refine .update_bind (fun page => Books sent run forgotten page ∧ (page.stopped = true ∨ run = 0))
    (fun _ here => here) (.ite (fun _ => .throw fun _ here => here.1) fun _ => ?_)
  refine .ofExcept_bind (fun position _ => ?_) fun _ _ _ here => here.1
  refine .update_bind (Books sent run forgotten) ?_ ?_
  · rintro page ⟨books, ended⟩
    exact ⟨books.attempts, books.sent, books.misses, books.claimed, books.counted,
      ended.imp_right .inl⟩
  · refine .ofExcept_step fun _ => .ofExcept_step fun reached => .ite (fun _ => redeem_books) fun _ => ?_
    exact .ofExcept_step fun _ => scheduleNext_books

/-- An answer that knows no place is one more in the row. -/
theorem queueAnswered_missed {s body : JsValue} :
    Script.Meets (fun page => Books sent run forgotten page ∧ page.knownPosition = .null)
      (queueAnswered moment s 404 body) (Kept sent (run + 1) (forgotten ∨ 8 ≤ run + 1))
      (Books sent (run + 1) (forgotten ∨ 8 ≤ run + 1)) := by
  refine .ite (fun _ => ?_) fun other => absurd rfl other
  refine .update_bind (fun page => ∃ before, (Books sent run forgotten before ∧
    before.knownPosition = .null) ∧ page = { before with misses := before.misses + 1 })
    (fun page here => ⟨page, here, rfl⟩) (.read_bind fun misses => .ite (fun many => ?_) fun few => ?_)
  · refine .update_bind (fun page => ∃ before, Books sent run forgotten before ∧ 8 ≤ before.misses + 1 ∧
      page = { before with misses := before.misses + 1, rejoinCycles := before.rejoinCycles + 1 }) ?_
      (.read_bind fun cycles => .ite (fun tooMany => ?_) fun again => ?_)
    · rintro _ ⟨⟨before, ⟨books, null⟩, rfl⟩, rfl⟩
      exact ⟨before, books, many, rfl⟩
    · refine .update_bind (Books sent (run + 1) (forgotten ∨ 8 ≤ run + 1)) ?_ (.pure fun _ books => books)
      rintro _ ⟨⟨before, books, -, rfl⟩, -⟩
      exact books.giveUp.mono le_rfl .inl
    · refine .update_bind (Books sent (run + 1) (forgotten ∨ 8 ≤ run + 1)) ?_ scheduleNext_books
      rintro _ ⟨⟨before, books, many, rfl⟩, rfl⟩
      exact (books.forget many again).mono le_rfl .inr
  · refine scheduleNext_books.mono ?_ (fun _ _ here => here) fun _ books => books
    rintro _ ⟨⟨before, ⟨books, null⟩, rfl⟩, rfl⟩
    exact (books.miss (Nat.lt_of_not_le few) null).mono le_rfl .inl

theorem askNumber_books {s : JsValue} :
    Script.Meets (Books sent run forgotten) (askNumber moment s) (Kept sent run forgotten)
      (Books sent run forgotten) := by
  refine .read_bind fun page => ?_
  split
  · next unknown =>
      refine .ite (fun _ => ?_) fun _ => .pure ?_
      · exact scheduleNext_books.mono (fun _ here => here.1) (fun _ _ here => here) fun _ books => books
      · rintro _ ⟨books, rfl⟩
        exact ⟨books, nofun, fun _ _ => unknown⟩
  · next known =>
      refine (queueAnswered_found (by decide)).mono ?_ (fun _ _ here => here) fun _ books => books
      rintro page ⟨books, rfl⟩
      have ended : page.stopped = true ∨ run = 0 :=
        books.unknown.imp_right fun either => either.resolve_right known
      refine ⟨⟨books.attempts, books.sent, Nat.zero_le run, books.claimed, ?_, books.unknown⟩, ended⟩
      rcases ended with stopped | none
      · exact .inl stopped
      · exact books.counted.imp_right fun ⟨_, cycles, _⟩ => ⟨Nat.zero_le 7, cycles, none.le.trans (Nat.zero_le _)⟩

theorem afterJoin_books {next : AfterJoin} :
    Script.Meets (Books sent run forgotten) (afterJoin moment next) (Kept sent run forgotten)
      (Books sent run forgotten) := by
  cases next with
  | schedule => exact scheduleNext_books
  | ask s => exact askNumber_books

theorem joinThen_books {next : AfterJoin} :
    Script.Meets (Books sent run forgotten) (joinThen moment next) (Kept sent run forgotten)
      (Books sent run forgotten) := by
  refine .bind join_books fun promise => ?_
  cases promise with
  | none => exact afterJoin_books
  | some promise =>
      refine .pure fun page ⟨joins, books, free⟩ => ⟨by rwa [if_pos joins], fun _ => free, ?_⟩
      rintro s rfl
      exact absurd joins Bool.false_ne_true

theorem statusAnswered_books {status : ℕ} {s : JsValue} :
    Script.Meets (Books sent run forgotten) (statusAnswered moment status s) (Kept sent run forgotten)
      (Books sent run forgotten) := by
  refine .ite (fun _ => .throw fun _ books => books) fun _ => ?_
  refine .ofExcept_step fun message => .ofExcept_step fun _ => .ofExcept_step fun _ => ?_
  refine .update_step (fun _ books => books.of_counters (by rfl) (by exact id)) ?_
  refine .update_step (fun _ books => books.of_counters (by rfl) (by exact id)) (.read_step fun eventId => ?_)
  refine .ite (fun _ => scheduleNext_books) fun _ => .ite (fun _ => ?_) fun _ => .ite (fun _ => ?_) fun _ =>
    .ite (fun _ => ?_) fun _ => ?_
  · refine .update_step (fun page books => ?_) (.ofExcept_step fun _ => ?_)
    · exact ⟨books.attempts, books.sent, books.misses, books.claimed, books.counted, .inr (.inr rfl)⟩
    · exact .ite (fun _ => joinThen_books) fun _ => scheduleNext_books
  · exact .ofExcept_step fun _ => scheduleNext_books
  · exact .update_step (fun _ books => books.navigate .root) (.pure fun _ books => books)
  · exact .update_step (fun _ books => books.of_counters (by rfl) (by exact id)) joinThen_books

theorem getJSON_json {response : Response} {value : JsValue} (passes : response.waf = false)
    (json : response.body = some value) :
    getJSON moment (.resolved response) = pure (response.status, value) := by
  obtain ⟨waf, status, body⟩ := response
  obtain rfl := passes
  obtain rfl := json
  rfl

/-- What an answer about the number does to the books is what it does to the log. -/
theorem number_books {log : List Note} {s : JsValue} :
    Script.Meets (fun page => Books sent (misses log) (Forgotten log) page ∧ page.knownPosition = .null)
      (resume moment answer (.queueNum s))
      (Kept sent (misses (heard answer (.queueNum s) ++ log)) (Forgotten (heard answer (.queueNum s) ++ log)))
      (Books sent (misses (heard answer (.queueNum s) ++ log))
        (Forgotten (heard answer (.queueNum s) ++ log))) := by
  by_cases json : ∃ response, answer = .resolved response ∧ response.waf = false ∧ response.body.isSome
  · obtain ⟨response, rfl, passes, json⟩ := json
    have noted : heard (.resolved response) (.queueNum s) = [.number response.status true] := by
      simp [heard, passes, json]
    obtain ⟨value, body⟩ := Option.isSome_iff_exists.mp json
    have asked : resume moment (.resolved response) (.queueNum s)
        = queueAnswered moment s response.status value := by
      rw [resume, getJSON_json passes body]
      rfl
    rw [noted, List.singleton_append, asked]
    by_cases found : response.status = 404
    · have weaker : Forgotten log ∨ 8 ≤ misses log + 1 → Forgotten (.number 404 true :: log) := by
        rintro (forgotten | many)
        · exact forgotten.cons (by simp)
        · exact forgotten_missed many
      rw [found, misses_missed]
      exact queueAnswered_missed.mono (fun _ here => here) (fun _ _ kept => kept.mono weaker)
        fun _ books => books.mono le_rfl weaker
    · rw [misses_found found]
      refine (queueAnswered_found found).mono (fun page here => ⟨?_, .inr rfl⟩) (fun _ _ here => here)
        fun _ books => books
      obtain ⟨books, -⟩ := here
      refine ⟨books.attempts, books.sent, le_rfl, ?_, ?_, .inr (.inl rfl)⟩
      · exact books.claimed.imp_right fun forgotten => forgotten.cons (by simp)
      · exact books.counted.imp_right fun counted => ⟨Nat.zero_le 7, counted.2.1, Nat.zero_le _⟩
  · have silent : misses (heard answer (.queueNum s) ++ log) = misses log ∧
        (Forgotten log → Forgotten (heard answer (.queueNum s) ++ log)) := by
      cases answer with
      | rejected => exact ⟨rfl, id⟩
      | resolved response =>
          cases marked : response.waf with
          | true => simp [heard, marked]
          | false =>
              have other : response.body.isSome = false := by
                cases some : response.body.isSome with
                | true => exact absurd ⟨response, rfl, marked, some⟩ json
                | false => rfl
              simp only [heard, marked, other, Bool.false_eq_true, if_false]
              exact ⟨rfl, fun forgotten => forgotten.cons (by simp)⟩
    rw [silent.1]
    refine .bind (getJSON_books fun _ here => here.1.mono le_rfl silent.2) fun result page here => ?_
    obtain ⟨-, response, same, passes, some, -⟩ := here
    exact absurd ⟨response, same, passes, some⟩ json

/-- A chain that makes its digest has its request in the books, one that joins has no accepted request
left, and one that asks for its number knows none. -/
def Holds (sent : ℕ) (log : List Note) (promise : Awaiting) (page : State) : Prop :=
  Books (sent + if promise.digests then 1 else 0) (misses log) (Forgotten log) page ∧
    (promise.joins = true → Forgotten log) ∧ ∀ s, promise = .queueNum s → page.knownPosition = .null

/-- **What any answer does to the books is what it does to the log.** -/
theorem resume_books {log : List Note} {promise : Awaiting} :
    Script.Meets (Holds sent log promise) (resume moment answer promise)
      (Kept sent (misses (heard answer promise ++ log)) (Forgotten (heard answer promise ++ log)))
      (Books sent (misses (heard answer promise ++ log)) (Forgotten (heard answer promise ++ log))) := by
  cases promise with
  | status =>
      refine .bind (getJSON_books fun _ here => here.1) fun result => ?_
      exact statusAnswered_books.mono (fun _ here => here.1.1) (fun _ _ here => here) fun _ books => books
  | digest next =>
      cases answer with
      | rejected =>
          refine .update_bind (Books sent (misses log) (Forgotten log)) ?_ (.throw fun _ books => books)
          exact fun _ here => (here.1.mono (Nat.le_succ sent) id).of_counters (by rfl) (by exact id)
      | resolved response =>
          refine .update_bind (fun page => Books (sent + 1) (misses log) (Forgotten log) page ∧ Forgotten log)
            ?_ (.pure fun _ here => ⟨here.1, fun _ => here.2, nofun⟩)
          exact fun _ here => ⟨here.1.of_counters (by rfl) (by exact id), here.2.1 rfl⟩
  | join next =>
      have same : misses (heard answer (.join next) ++ log) = misses log := by
        cases accepts : answer.accepts <;> simp [heard, accepts]
      have free : Forgotten log ∧ answer.accepts = false →
          Forgotten (heard answer (.join next) ++ log) := by
        rintro ⟨forgotten, refused⟩
        simpa [heard, refused] using forgotten
      rw [same]
      refine .bind (joinAnswered_books.mono (fun _ here => here.1)
        (fun _ _ books => books.mono le_rfl free) fun _ books => books.mono le_rfl free) fun _ => ?_
      exact afterJoin_books
  | queueNum s =>
      refine number_books.mono (fun page here => ?_) (fun _ _ here => here) fun _ books => books
      exact ⟨here.1, here.2.2 s rfl⟩
  | token =>
      refine .bind (.tryCatch (postJSON_books.mono (fun _ here => here.1) (fun _ _ here => here.1)
        fun _ here => here.1) fun error => ?_) fun result => .bind tokenAnswered_books fun _ => afterRedeem_books
      exact .update_step (fun _ books => books.of_counters (by rfl) (by exact id)) (.throw fun _ books => books)

end Answers

/-! ## Every run -/

/-- Before each request to join, every accepted one was given up. -/
def Sound (log : List Note) : Prop :=
  ∀ later rest, log = later ++ .posted :: rest → Forgotten rest

theorem Sound.cons {log : List Note} (sound : Sound log) {note : Note}
    (free : note = .posted → Forgotten log) : Sound (note :: log) := by
  intro later rest split
  cases later with
  | nil =>
      obtain ⟨rfl, rfl⟩ := List.cons.inj split
      exact free rfl
  | cons first later => exact sound later rest (List.cons.inj split).2

/-- What a page in a run is like, between two events. -/
structure Ledger (log : List Note) (page : State) : Prop where
  sound : Sound log
  books : Books (log.count .posted + page.chains.countP Awaiting.digests) (misses log) (Forgotten log) page
  free : ∀ promise ∈ page.chains, promise.joins = true → Forgotten log
  unknown : ∀ s, .queueNum s ∈ page.chains → page.knownPosition = .null

section Ledger

variable {log : List Note} {page page' : State}

/-- What neither joins nor asks leaves the ledger alone. -/
theorem Ledger.of_counters (ledger : Ledger log page) (same : counters page' = counters page)
    (stops : page.stopped = true → page'.stopped = true)
    (chains : page'.chains = page.chains ∨ page'.chains = page.chains ++ [.status]) :
    Ledger log page' := by
  have known : page'.knownPosition = page.knownPosition := by
    simp only [counters, Prod.mk.injEq] at same
    exact same.2.2.2.2
  have count : page'.chains.countP Awaiting.digests = page.chains.countP Awaiting.digests := by
    rcases chains with chains | chains <;> simp [chains, Awaiting.digests]
  have member : ∀ promise ∈ page'.chains, promise ∈ page.chains ∨ promise = .status := by
    intro promise member
    rcases chains with chains | chains
    · exact .inl (chains ▸ member)
    · simpa [chains] using member
  refine ⟨ledger.sound, ?_, fun promise inside joins => ?_, fun s inside => ?_⟩
  · rw [count]
    exact ledger.books.of_counters same stops
  · rcases member promise inside with before | rfl
    · exact ledger.free promise before joins
    · exact absurd joins Bool.false_ne_true
  · rcases member _ inside with before | other
    · exact known.trans (ledger.unknown s before)
    · cases other

theorem Ledger.tick (ledger : Ledger log page) (moment : Moment) : Ledger log (page.tick moment) := by
  rw [State.tick]
  split_ifs
  · exact ledger.of_counters (by rfl) (by exact id) (.inl rfl)
  · exact ledger.of_counters (by rfl) (by exact id) (.inr rfl)

theorem Ledger.dropTimer (ledger : Ledger log page) : Ledger log page.dropTimer :=
  ledger.of_counters counters_clearTimer (fun stopped => (Prod.mk.inj standing_clearTimer).1.trans stopped)
    (.inl (Prod.mk.inj frame_dropTimer).1)

theorem Ledger.visibilityChange (ledger : Ledger log page) (moment : Moment) :
    Ledger log (page.visibilityChange moment) := by
  rw [State.visibilityChange]
  split_ifs
  · exact ledger
  · exact ledger.dropTimer
  · exact ledger.dropTimer.tick moment
  · exact ledger.dropTimer.of_counters (by rfl) (by exact id) (.inl rfl)

/-- A chain that goes on, alone. -/
theorem Ledger.goOn {promise : Awaiting} (sound : Sound log) (alone : page.chains = [promise])
    (other : ∀ next, promise ≠ .join next)
    (kept : Kept (log.count .posted) (misses log) (Forgotten log) (.awaiting promise) page) :
    Ledger log page := by
  have count : page.chains.countP Awaiting.digests = if promise.joins then 1 else 0 := by
    rw [alone, List.countP_singleton]
    cases promise with
    | join next => exact absurd rfl (other next)
    | _ => rfl
  refine ⟨sound, by rw [count]; exact kept.1, fun promise' member => ?_, fun s member => ?_⟩
  · rw [alone, List.mem_singleton] at member
    exact member ▸ kept.2.1
  · rw [alone, List.mem_singleton] at member
    exact kept.2.2 s member.symm

/-- A chain that sends its request to join, alone. -/
theorem Ledger.post {next : AfterJoin} (sound : Sound log) (alone : page.chains = [.join next])
    (kept : Kept (log.count .posted) (misses log) (Forgotten log) (.awaiting (.join next)) page) :
    Ledger (.posted :: log) page := by
  have free : Forgotten log := kept.2.1 rfl
  refine ⟨sound.cons fun _ => free, ?_, fun _ _ _ => free.cons nofun, fun s member => ?_⟩
  · rw [alone, List.count_cons_self, misses_posted]
    exact kept.1.mono le_rfl fun forgotten => forgotten.cons nofun
  · rw [alone, List.mem_singleton] at member
    cases member

/-- A chain that is over. -/
theorem Ledger.settle (sound : Sound log) (alone : page.chains = [])
    (books : Books (log.count .posted) (misses log) (Forgotten log) page) : Ledger log page := by
  refine ⟨sound, ?_, fun promise member => ?_, fun s member => ?_⟩
  · rw [alone]
    exact books
  · simp [alone] at member
  · simp [alone] at member

/-- The work on an answer leaves the ledger in order. -/
theorem Ledger.conclude {outcome : Except JsError Progress × State} (sound : Sound log)
    (alone : outcome.2.chains = [])
    (kept : Script.Ends (Kept (log.count .posted) (misses log) (Forgotten log))
      (Books (log.count .posted) (misses log) (Forgotten log)) outcome) :
    Ledger (posts outcome ++ log) (Page.conclude outcome) := by
  rcases outcome with ⟨error | promise | _, page⟩
  · refine .settle sound ((Prod.mk.inj (frame_schedule page)).1.trans alone) ?_
    exact (Books.schedule kept).of_counters (by rfl) (by exact id)
  · have single : page.chains ++ [promise] = [promise] := by rw [show page.chains = [] from alone]; rfl
    have entered : Kept (log.count .posted) (misses log) (Forgotten log) (.awaiting promise)
        { page with chains := page.chains ++ [promise] } :=
      ⟨kept.1.of_counters (by rfl) (by exact id), kept.2⟩
    cases promise with
    | join next => exact .post sound single entered
    | _ => exact .goOn sound single nofun entered
  · exact .settle sound alone (Books.of_counters (by rfl) (by exact id) kept)

/-- **Every event leaves the ledger in order.** -/
theorem Ledger.step {moment : Moment} {event : Event} (single : Single page) (ledger : Ledger log page)
    (steps : Page.step moment event page = some page') : Ledger (notes moment event page ++ log) page' := by
  cases event with
  | fire handle =>
      rw [Page.step] at steps
      split_ifs at steps
      obtain rfl := Option.some.inj steps
      have fired : Ledger log { page with timers := page.timers.erase handle } :=
        ledger.of_counters rfl id (.inl rfl)
      exact fired.tick moment
  | visibility hidden =>
      obtain rfl := Option.some.inj steps
      have shown : Ledger log { page with hidden := hidden } := ledger.of_counters rfl id (.inl rfl)
      exact shown.visibilityChange moment
  | settle chain answer =>
      obtain ⟨promise, chained, rfl⟩ := Option.map_eq_some_iff.mp steps
      obtain ⟨one, alone, -⟩ := single.settles chained
      have kept := resume_keeps moment answer promise { page with chains := page.chains.eraseIdx chain }
      obtain ⟨silent, sound⟩ : (heard answer promise ++ log).count .posted = log.count .posted ∧
          Sound (heard answer promise ++ log) := by
        rcases heard_cases answer promise with none | ⟨note, one, other⟩
        · rw [none]
          exact ⟨rfl, ledger.sound⟩
        · rw [one]
          exact ⟨List.count_cons_of_ne other, ledger.sound.cons fun same => absurd same other⟩
      have holds : Holds (log.count .posted) log promise { page with chains := page.chains.eraseIdx chain } := by
        have books := ledger.books
        rw [one, List.countP_singleton] at books
        refine ⟨books.of_counters (by rfl) (by exact id), ledger.free promise (by simp [one]), fun s same => ?_⟩
        exact ledger.unknown s (by simp [one, same])
      have noted : notes moment (.settle chain answer) page = posts ((resume moment answer promise).exec
          { page with chains := page.chains.eraseIdx chain }) ++ heard answer promise := by
        simp only [notes, chained]
      rw [noted, List.append_assoc]
      refine .conclude sound ((Prod.mk.inj kept).1.trans alone) ?_
      rw [silent]
      exact resume_books _ holds

end Ledger

theorem Logged.reached {log : List Note} {page : State} (logged : Logged log page) :
    Reached (fun _ _ _ => True) page := by
  induction logged with
  | load search subtle hidden moment => exact .load search subtle hidden moment
  | step _ steps ih => exact .step ih trivial steps

theorem ledger_of_logged {log : List Note} {page : State} (logged : Logged log page) : Ledger log page := by
  induction logged with
  | load search subtle hidden moment =>
      refine Ledger.tick (.settle (fun later rest split => by simp at split) rfl ?_) moment
      exact ⟨Nat.zero_le 8, Nat.zero_le _, le_rfl, .inr forgotten_nil,
        .inr ⟨Nat.zero_le 7, Nat.zero_le 3, Nat.zero_le _⟩, .inr (.inl rfl)⟩
  | step logged steps ih => exact ih.step (single_of_reached logged.reached) steps

/-- **A page gives up rather than joining forever.** Whatever happens, one page sends at most eight
requests to join in each of four cycles; between one that was accepted and the next, eight answers in a
row knew no place; and when thirty-two in a row did, the page has stopped. -/
theorem joins_bounded (log : List Note) (page : State) (logged : Logged log page) :
    log.count .posted ≤ 8 * (3 + 1) ∧
    (∀ later between earlier, log = later ++ .posted :: (between ++ .accepted :: earlier) →
      ∃ after before, between = after ++ .number 404 true :: before ∧
        Missing 8 (.number 404 true :: before ++ .accepted :: earlier)) ∧
    (Missing (8 * (3 + 1)) log → page.stopped = true) := by
  obtain ⟨sound, books, -, -⟩ := ledger_of_logged logged
  refine ⟨?_, fun later between earlier split => sound later _ split between earlier rfl, fun missing => ?_⟩
  · have sent := books.sent
    have attempts := books.attempts
    rw [room] at sent
    split_ifs at sent <;> omega
  · have row := (missing_iff _ _).mp missing
    refine books.counted.resolve_right ?_
    rintro ⟨last, cycles, counted⟩
    omega

/-! ## Two runs -/

/-- Several events, each where it can happen, and what is noted of them. -/
def logFrom (log : List Note) (page : State) : List (Moment × Event) → Option (List Note × State)
  | [] => some (log, page)
  | (moment, event) :: events =>
      (step moment event page).bind fun later => logFrom (notes moment event page ++ log) later events

theorem logged_logFrom {log log' : List Note} {page page' : State} {events : List (Moment × Event)}
    (logged : Logged log page) (runs : logFrom log page events = some (log', page')) :
    Logged log' page' := by
  induction events generalizing log page with
  | nil =>
      obtain ⟨rfl, rfl⟩ := Prod.mk.inj (Option.some.inj runs)
      exact logged
  | cons event events ih =>
      obtain ⟨later, steps, runs⟩ := Option.bind_eq_some_iff.mp runs
      exact ih (.step logged steps) runs

/-- A run from the load of a page, and what is known of its end. -/
theorem exists_logged {α : Type} (moment : Moment) (events : List (Moment × Event)) (view : State → α)
    {log : List Note} {value : α}
    (runs : (logFrom [] (load [] true false moment) events).map (fun final => (final.1, view final.2))
      = some (log, value)) : ∃ page, Logged log page ∧ view page = value := by
  obtain ⟨⟨log', page⟩, final, same⟩ := Option.map_eq_some_iff.mp runs
  obtain ⟨rfl, seen⟩ := Prod.mk.inj same
  exact ⟨page, logged_logFrom (.load [] true false moment) final, seen⟩

/-- A browser whose storage holds no claim. -/
def newcomer : Moment := { sampleMoment with storedJoined := false }

/-- An answer that no place is known by this number. -/
def missed : Answer := .resolved ⟨false, 404, some (.object [])⟩

/-- An error page. -/
def errorPage (status : ℕ) : Answer := .resolved ⟨false, status, none⟩

/-- A poll that is answered: its timer fires, the event is open, and the number is asked for. -/
def poll (moment : Moment) (handle : ℕ) (answer : Answer) : List (Moment × Event) :=
  [(moment, .fire handle), (moment, .settle 0 sampleStatus), (moment, .settle 0 answer)]

/-- The first poll of a newcomer, whose request to join is accepted. -/
def firstPoll : List (Moment × Event) :=
  [sampleStatus, sampleAnswer (.object []), sampleAnswer (.object []), missed].map fun answer =>
    (newcomer, .settle 0 answer)

/-- More polls, from a handle on, that are answered alike. -/
def polls (moment : Moment) (handle count : ℕ) (answer : Answer) : List (Moment × Event) :=
  (List.range' handle count).flatMap fun handle => poll moment handle answer

/-- The log of a page that joins again after eight answers in a row. -/
def rejoined : List Note := [.posted] ++ List.replicate 8 (.number 404 true) ++ [.accepted, .posted]

theorem joins_bounded_sample :
    ∃ page, Logged rejoined page ∧ rejoined.count .posted ≤ 8 * (3 + 1) ∧ page.stopped = false := by
  obtain ⟨page, logged, going⟩ : ∃ page, Logged rejoined page ∧ page.stopped = false :=
    exists_logged newcomer (firstPoll ++ polls newcomer 0 7 missed ++
      [(newcomer, .fire 7), (newcomer, .settle 0 sampleStatus)]) State.stopped (by decide +kernel)
  exact ⟨page, logged, (joins_bounded rejoined page logged).1, going⟩

/-- The log of a page that joins again although an error page came between the answers. -/
def interrupted : List Note :=
  [.posted, .number 404 true, .number 500 false] ++ List.replicate 7 (.number 404 true) ++
    [.accepted, .posted]

/-- **An answer that is not JSON is no answer.** An error page among the answers does not start the row
again, and thirty-two error pages of status 404 do not stop the page. -/
theorem other_answers_do_not_count :
    (∃ page, Logged interrupted page) ∧
      ∃ page, Logged (List.replicate 32 (.number 404 false)) page ∧ page.stopped = false := by
  constructor
  · obtain ⟨page, logged, -⟩ : ∃ page, Logged interrupted page ∧ page.stopped = false :=
      exists_logged newcomer (firstPoll ++ polls newcomer 0 6 missed ++ poll newcomer 6 (errorPage 500) ++
        poll newcomer 7 missed ++ [(newcomer, .fire 8), (newcomer, .settle 0 sampleStatus)])
        State.stopped (by decide +kernel)
    exact ⟨page, logged⟩
  · exact exists_logged sampleMoment ([(sampleMoment, .settle 0 sampleStatus),
      (sampleMoment, .settle 0 (errorPage 404))] ++ polls sampleMoment 0 31 (errorPage 404))
      State.stopped (by decide +kernel)

end WaitingRoom.Page
