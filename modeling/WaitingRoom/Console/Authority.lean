import WaitingRoom.Concurrency.Blocks
import WaitingRoom.Concurrency.Counting
import WaitingRoom.Console.Protocol
import WaitingRoom.Properties.Anchor

/-!
# Who acts

Logins, ways back, logouts and actions of any browsers run among each other against a table that
fails, reclaims rows and reads stale. Whatever an action sends to the operators' stores, it sends as
the operator of a login that was completed: started with a state, a verifier and a nonce of its own,
brought back by the browser that holds the state, redeemed with that verifier, vouched for by an id
token for that nonce and an email of the allowlist, and in time (`actions_follow_logins`). A login
is completed once: the ways back that present a state write no more sessions than logins wrote a
pending row under it, and there are no more sessions than logins (`sessions_le_logins`).
-/

set_option autoImplicit false

namespace WaitingRoom.Console

open Dynamo Concurrency

/-! ## Completed logins -/

/-- A login from its start to its session: what was drawn and when, what the way back presented,
and what the provider said. -/
structure CompletedLogin where
  draw : LoginDraw
  started : ArrivalTime
  cookies : Option String
  code : String
  random : Fin 10 → UInt8
  created : ArrivalTime
  idToken : String
  claims : Claims

namespace CompletedLogin

variable (login : CompletedLogin)

/-- The request that started it. -/
def start : ConsoleJob := .login login.draw login.started

/-- The row it left for the way back. -/
def pending : Item :=
  pendingRow login.draw.csrf ⟨login.draw.pkceVerifier, login.draw.nonce⟩ login.started

/-- The request that completed it. -/
def wayBack : ConsoleJob :=
  .callback login.cookies login.code login.draw.csrf (some login.random) login.created

/-- The id of its session. -/
def sessionId : String := requestIdAt login.created.millis login.random

/-- Who its session belongs to. -/
def session : AdminSession := ⟨login.claims.subject, login.claims.address⟩

end CompletedLogin

/-- What a way back had to show. -/
structure Proven (desk : Desk) (login : CompletedLogin) : Prop where
  bound : desk.cookieValue login.cookies stateCookie = some login.draw.csrf
  inTime : login.created.epochSeconds < login.started.epochSeconds + pkceTtlSecs
  verified : desk.oidc.claims login.idToken login.draw.nonce = .ok login.claims
  allowed : toAsciiLowercase login.claims.address ∈ desk.allowedEmails

/-- A login was started, its row consumed and its code redeemed, in this order and the last two by
the request of one thread. -/
structure Redeemed (log : List ConsoleEntry) (thread : ℕ) (login : CompletedLogin) : Prop where
  token : redeemed login.code login.draw.pkceVerifier (.ok (some login.idToken)) ∈ history log thread
  consumed : ∃ newer taken older, log = newer ++ taken :: older ∧ taken.thread = thread ∧
    taken.exchange =
      tokensAnswered (.deleteItem (.pkceTransaction login.draw.csrf)) (.ok (some login.pending)) ∧
    ∃ begun ∈ older, begun.job = login.start ∧
      begun.exchange.call = .tokens (.putItem (.pkceTransaction login.draw.csrf) login.pending)

/-- A login was completed: its session was written behind all it takes. -/
structure Completed (desk : Desk) (log : List ConsoleEntry) (login : CompletedLogin) : Prop where
  proven : Proven desk login
  written : ∃ newer entry older, log = newer ++ entry :: older ∧ entry.job = login.wayBack ∧
    entry.exchange.call = .tokens (.putItem (.oidcSession login.sessionId)
      (sessionRow login.sessionId login.session login.created)) ∧
    Redeemed older entry.thread login

section Authority

variable {desk : Desk} {origin state : ConsoleState} {log older : List ConsoleEntry}
  {entry : ConsoleEntry}

/-- What a thread was told stands in the log with a trace below it. -/
theorem ConsoleTrace.told (trace : ConsoleTrace desk origin log state) {thread : ℕ}
    {exchange : Exchange ConsoleStores} (member : exchange ∈ history log thread) :
    ∃ newer entry older, log = newer ++ entry :: older ∧ entry.thread = thread ∧
      entry.exchange = exchange ∧ ConsoleTrace desk origin older entry.before ∧
      ∃ choice, respondConsole exchange.call choice (past older) entry.before =
        some (exchange.answer, entry.after) := by
  obtain ⟨entry, inLog, mine, rfl⟩ := mem_history.mp member
  obtain ⟨newer, older, rfl⟩ := List.append_of_mem inLog
  obtain ⟨earlier, -, choice, -, responds⟩ := trace.split
  exact ⟨newer, entry, older, rfl, mine, rfl, earlier, choice, responds⟩

/-- A row of a pending login was written by the login that drew its state. -/
theorem ConsoleTrace.begun (trace : ConsoleTrace desk origin log state) (fresh : Fresh origin)
    {csrf : String} {item : Item}
    (held : state.tokens (TokenKey.pkceTransaction csrf).value = some item) :
    ∃ draw now, draw.csrf = csrf ∧
      item = pendingRow draw.csrf ⟨draw.pkceVerifier, draw.nonce⟩ now ∧
      ∃ entry ∈ log, entry.job = .login draw now ∧
        entry.exchange.call = .tokens (.putItem (.pkceTransaction draw.csrf) item) := by
  obtain ⟨newer, entry, older, written, rfl, call, mine⟩ := trace.written fresh held
  obtain rfl := TokenKey.value_injective mine
  obtain ⟨-, lawful, -⟩ := trace.split
  rw [call] at lawful
  obtain ⟨draw, now, -, job, rfl, row⟩ := lawful
  exact ⟨draw, now, rfl, row, entry, by simp, job, call⟩

/-- What a way back vouches for was begun by a login of its state. -/
theorem Vouched.redeemed {cookies : Option String} {code csrf : String} {now : ArrivalTime}
    {pending : PendingLogin} {claims : Claims} {thread : ℕ}
    (vouched : Vouched desk (history log thread) cookies code csrf now pending claims)
    (trace : ConsoleTrace desk origin log state) (fresh : Fresh origin) (random : Fin 10 → UInt8) :
    ∃ login : CompletedLogin, login.wayBack = .callback cookies code csrf (some random) now ∧
      login.claims = claims ∧ Proven desk login ∧ Redeemed log thread login := by
  obtain ⟨item, consumed, taken⟩ := vouched.consumed
  obtain ⟨idToken, token, verified⟩ := vouched.verified
  obtain ⟨newer, entry, older, whole, mine, same, earlier, choice, responds⟩ := trace.told consumed
  obtain ⟨held, -⟩ := respondConsole_deleted responds
  obtain ⟨draw, started, rfl, row, begun, inLog, job, call⟩ := earlier.begun fresh held
  rw [row, pendingLoginFrom_pendingRow] at taken
  split_ifs at taken with late
  obtain rfl := Option.some.inj taken
  refine ⟨⟨draw, started, cookies, code, random, now, idToken, claims⟩, rfl, rfl, ?_, ?_⟩
  · refine ⟨vouched.bound, ?_, verified, vouched.allowed⟩
    exact (Nat.lt_of_not_le late).trans_le (Nat.min_le_left _ _)
  · refine ⟨token, newer, entry, older, whole, mine, ?_, begun, inLog, job, ?_⟩
    · rw [same, row]
      rfl
    · rw [call, row]
      rfl

/-- A session that the table holds was written by a completed login. -/
theorem ConsoleTrace.completed (trace : ConsoleTrace desk origin log state) (fresh : Fresh origin)
    {id : String} {item : Item}
    (held : state.tokens (TokenKey.oidcSession id).value = some item) :
    ∃ login : CompletedLogin, login.sessionId = id ∧
      item = sessionRow login.sessionId login.session login.created ∧ Completed desk log login := by
  obtain ⟨newer, entry, older, written, rfl, call, mine⟩ := trace.written fresh held
  obtain rfl := TokenKey.value_injective mine
  obtain ⟨earlier, lawful, -⟩ := trace.split
  rw [call] at lawful
  obtain ⟨code, csrf, cookies, random, now, pending, claims, creates⟩ := lawful
  obtain ⟨login, wayBack, rfl, proven, redeemed⟩ := creates.vouched.redeemed earlier fresh random
  have fields := wayBack
  simp only [CompletedLogin.wayBack, ConsoleJob.callback.injEq, Option.some.injEq] at fields
  obtain ⟨-, -, -, rfl, rfl⟩ := fields
  have row := creates.row
  obtain rfl := creates.drawn
  refine ⟨login, rfl, row, proven, newer, entry, older, rfl, ?_, ?_, redeemed⟩
  · rw [creates.serves, wayBack]
  · rw [call, row]
    rfl

/-- **Whatever an action sends to the operators' stores, it sends as the operator of a login that was
completed, while its session lasts.** -/
theorem actions_follow_logins {c : ConsoleRoom} (run : ConsoleRun desk origin c)
    (fresh : Fresh origin) {newer older : List ConsoleEntry} {entry : ConsoleEntry}
    {call : OperatorCall} (split : c.log = newer ++ entry :: older)
    (sends : entry.exchange.call = .operators call) :
    ∃ cookies form now apply, ∃ login : CompletedLogin, entry.job = .action cookies form now ∧
      desk.apply form = .ok apply ∧ (apply login.session.email now).Makes call ∧
      desk.sessionIdFrom cookies = some login.sessionId ∧
      now.epochSeconds < login.created.epochSeconds + sessionTtlSecs ∧
      Completed desk older login := by
  have trace := consoleTrace run
  rw [split] at trace
  obtain ⟨earlier, lawful, -⟩ := trace.split
  rw [sends] at lawful
  obtain ⟨cookies, form, now, id, item, session, apply, acts⟩ := lawful
  obtain ⟨newest, loaded, oldest, whole, -, -, below, choice, responds⟩ :=
    ConsoleTrace.told earlier acts.loaded
  obtain ⟨between, base, old, below_eq, once, held⟩ := below.read responds
  obtain ⟨login, rfl, row, completed⟩ := once.completed fresh held
  have alive := acts.alive
  rw [row, adminSessionFrom_sessionRow] at alive
  split_ifs at alive with late
  obtain rfl := Option.some.inj alive
  refine ⟨cookies, form, now, apply, login, acts.serves, acts.asked, acts.makes, acts.presented, ?_,
    completed.proven, ?_⟩
  · exact (Nat.lt_of_not_le late).trans_le (Nat.min_le_left _ _)
  · obtain ⟨first, written, rest, rfl, facts⟩ := completed.written
    exact ⟨newest ++ loaded :: (between ++ first), written, rest, by simp [whole, below_eq], facts⟩

/-! ## Once per login -/

/-- A request writes a pending login under a state. -/
def begins (csrf : String) (exchange : Exchange ConsoleStores) : Bool :=
  match exchange.call with
  | .tokens (.putItem key _) => key = .pkceTransaction csrf
  | _ => false

/-- A request consumes a pending login. -/
def consumes (csrf : String) : Exchange ConsoleStores → Bool
  | ⟨.tokens (.deleteItem key), .ok (some _)⟩ => key = .pkceTransaction csrf
  | _ => false

/-- A way back that presents a state writes a session. -/
def completes (csrf : String) (entry : ConsoleEntry) : Bool :=
  match entry.job, entry.exchange.call with
  | .callback _ _ presented _ _, .tokens (.putItem (.oidcSession _) _) => presented = csrf
  | _, _ => false

/-- The state that a way back presents when it writes a session. -/
def completedState (entry : ConsoleEntry) : Option String :=
  match entry.job, entry.exchange.call with
  | .callback _ _ presented _ _, .tokens (.putItem (.oidcSession _) _) => some presented
  | _, _ => none

theorem completes_eq (csrf : String) (entry : ConsoleEntry) :
    completes csrf entry = decide (completedState entry = some csrf) := by
  unfold completes completedState
  split <;> simp

/-- A request writes a session. -/
def createsSession (entry : ConsoleEntry) : Bool :=
  match entry.exchange.call with
  | .tokens (.putItem (.oidcSession _) _) => true
  | _ => false

/-- How many rows a key has. -/
def holds (tokens : Tokens) (key : TokenKey) : ℕ := (tokens key.value).isSome.toNat

theorem holds_le_one (tokens : Tokens) (key : TokenKey) : holds tokens key ≤ 1 := Bool.toNat_le _

/-- A request that begins no login leaves a row only where one was. -/
theorem holds_mono {call : ConsoleCall} {choice : ConsoleChoice} {past : List ConsoleState}
    {before after : ConsoleState} {answer : ConsoleAnswer call}
    (responds : respondConsole call choice past before = some (answer, after)) {csrf : String}
    (other : begins csrf ⟨call, answer⟩ = false) :
    holds after.tokens (.pkceTransaction csrf) ≤ holds before.tokens (.pkceTransaction csrf) := by
  unfold holds
  cases held : after.tokens (TokenKey.pkceTransaction csrf).value with
  | none => exact Nat.zero_le _
  | some item =>
      rcases respondConsole_tokens responds held with old | ⟨written, rfl, mine⟩
      · rw [old]
      · obtain rfl := TokenKey.value_injective mine
        simp [begins] at other

/-- A request takes away the row it consumes, and adds the one it begins. -/
theorem respondConsole_holds {call : ConsoleCall} {choice : ConsoleChoice}
    {past : List ConsoleState} {before after : ConsoleState} {answer : ConsoleAnswer call}
    (responds : respondConsole call choice past before = some (answer, after)) (csrf : String) :
    (consumes csrf ⟨call, answer⟩).toNat + holds after.tokens (.pkceTransaction csrf) ≤
      (begins csrf ⟨call, answer⟩).toNat + holds before.tokens (.pkceTransaction csrf) := by
  cases begun : begins csrf ⟨call, answer⟩ with
  | true =>
      have idle : consumes csrf ⟨call, answer⟩ = false := by
        rcases call with (_ | _ | _) | _ | _
        · rfl
        all_goals cases begun
      have one := holds_le_one after.tokens (.pkceTransaction csrf)
      rw [idle, Bool.toNat_true, Bool.toNat_false]
      omega
  | false =>
      have kept := holds_mono responds begun
      cases taken : consumes csrf ⟨call, answer⟩ with
      | false => omega
      | true =>
          rcases call with (_ | key | _) | _ | _
          all_goals try cases taken
          rcases answer with error | (_ | item)
          all_goals try cases taken
          obtain rfl : key = .pkceTransaction csrf := by simpa [consumes] using taken
          obtain ⟨was, gone⟩ := respondConsole_deleted responds
          simp [holds, was, gone]

/-- **No more pending logins are consumed than were begun.** -/
theorem ConsoleTrace.consumed_le (trace : ConsoleTrace desk origin log state) (fresh : Fresh origin)
    (csrf : String) :
    (log.countP fun entry => consumes csrf entry.exchange) +
        holds state.tokens (.pkceTransaction csrf) ≤
      log.countP fun entry => begins csrf entry.exchange := by
  induction trace with
  | nil => simp [holds, fresh _]
  | cons earlier _ _ responds ih =>
      have step := respondConsole_holds responds csrf
      simp only [Bool.toNat, cond_eq_ite] at step
      simp only [List.countP_cons]
      omega

/-- A way back that writes a session consumed its pending login before, and wrote no session yet. -/
theorem ConsoleTrace.completes (trace : ConsoleTrace desk origin log state)
    {newer : List ConsoleEntry} (split : log = newer ++ entry :: older) {csrf : String}
    (done : completes csrf entry) :
    (∃ taken ∈ older, consumes csrf taken.exchange ∧ taken.thread = entry.thread) ∧
      CreatesNothing (history older entry.thread) := by
  rw [split] at trace
  obtain ⟨-, lawful, -⟩ := trace.split
  unfold Console.completes at done
  split at done
  · rename_i cookies code presented random now id attributes job call
    rw [call] at lawful
    obtain ⟨code, state, cookies, random, now, pending, claims, creates⟩ := lawful
    obtain ⟨item, consumed, -⟩ := creates.vouched.consumed
    obtain ⟨taken, below, mine, same⟩ := mem_history.mp consumed
    have serves := creates.serves
    rw [job, ConsoleJob.callback.injEq] at serves
    obtain ⟨-, -, rfl, -, -⟩ := serves
    refine ⟨⟨taken, below, ?_, mine⟩, creates.once⟩
    rw [same]
    simpa [consumes] using done
  · cases done

/-- A login drew a state. -/
def drew (csrf : String) : ConsoleJob → Bool
  | .login draw _ => draw.csrf = csrf
  | _ => false

/-- The state a login drew. -/
def drawnState : ConsoleJob → Option String
  | .login draw _ => some draw.csrf
  | .callback _ _ _ _ _ | .logout _ | .action _ _ _ => none

theorem drew_eq (csrf : String) (job : ConsoleJob) : drew csrf job = decide (drawnState job = some csrf) := by
  cases job <;> simp [drew, drawnState]

/-- A login. -/
def ConsoleJob.isLogin : ConsoleJob → Bool
  | .login _ _ => true
  | .callback _ _ _ _ _ | .logout _ | .action _ _ _ => false

theorem ConsoleJob.isLogin_eq (job : ConsoleJob) : job.isLogin = (drawnState job).isSome := by
  cases job <;> rfl

/-- A session is written by a way back. -/
theorem ConsoleTrace.creates (trace : ConsoleTrace desk origin log state) (member : entry ∈ log)
    (created : createsSession entry) : (completedState entry).isSome := by
  obtain ⟨newer, older, rfl⟩ := List.append_of_mem member
  obtain ⟨-, lawful, -⟩ := trace.split
  unfold createsSession at created
  split at created
  · next id attributes call =>
    rw [call] at lawful
    obtain ⟨code, state, cookies, random, now, pending, claims, creates⟩ := lawful
    rw [completedState, creates.serves, call]
    rfl
  · cases created

/-- A pending row is written by a login that drew its state, as the first thing it does. -/
theorem ConsoleTrace.begins (trace : ConsoleTrace desk origin log state)
    {newer : List ConsoleEntry} (split : log = newer ++ entry :: older) {csrf : String}
    (begun : begins csrf entry.exchange) : drew csrf entry.job ∧ history older entry.thread = [] := by
  rw [split] at trace
  obtain ⟨-, lawful, -⟩ := trace.split
  unfold Console.begins at begun
  split at begun
  · rename_i key attributes call
    obtain rfl : key = .pkceTransaction csrf := by simpa using begun
    rw [call] at lawful
    obtain ⟨draw, now, first, job, rfl, -⟩ := lawful
    rw [job]
    exact ⟨by simp [drew], first⟩
  · cases begun

/-- The ways back that present a state write no more sessions than there were logins that drew it. -/
theorem completes_le_drew {c : ConsoleRoom} (run : ConsoleRun desk origin c) (fresh : Fresh origin)
    (csrf : String) : c.log.countP (completes csrf) ≤ c.jobs.countP (drew csrf) := by
  have trace := consoleTrace run
  have completed : c.log.countP (completes csrf) ≤
      c.log.countP fun entry => consumes csrf entry.exchange := by
    refine countP_le_of_threads ?_ ?_
    · refine pairwise_of_split fun newer late between early older whole done before same => ?_
      obtain ⟨-, once⟩ := trace.completes whole done
      unfold completes at before
      split at before
      · rename_i call
        exact once early.exchange (mem_history.mpr ⟨early, by simp, same.symm, rfl⟩) _ _ call
      · cases before
    · intro entry inLog done
      obtain ⟨newer, older, whole⟩ := List.append_of_mem inLog
      obtain ⟨⟨taken, below, consumed, mine⟩, -⟩ := trace.completes whole done
      exact ⟨taken, by simp [whole, below], consumed, mine⟩
  have begun : (c.log.countP fun entry => begins csrf entry.exchange) ≤ c.jobs.countP (drew csrf) := by
    refine countP_le_of_jobs ?_ ?_
    · refine pairwise_of_split fun newer late between early older whole begun before same => ?_
      obtain ⟨-, first⟩ := trace.begins whole begun
      have told : early.exchange ∈ history (between ++ early :: older) late.thread :=
        mem_history.mpr ⟨early, by simp, same.symm, rfl⟩
      rw [first] at told
      cases told
    · intro entry inLog begun
      obtain ⟨newer, older, whole⟩ := List.append_of_mem inLog
      exact ⟨System.Reaches.job_of_entry run inLog, (trace.begins whole begun).1⟩
  have consumed := trace.consumed_le fresh csrf
  exact (completed.trans (Nat.le_of_add_right_le consumed)).trans begun

/-- **There are no more sessions than logins**: in total, and among those that present a state and those
that drew it. -/
theorem sessions_le_logins {c : ConsoleRoom} (run : ConsoleRun desk origin c) (fresh : Fresh origin) :
    (∀ csrf, c.log.countP (completes csrf) ≤ c.jobs.countP (drew csrf)) ∧
      c.log.countP createsSession ≤ c.jobs.countP ConsoleJob.isLogin := by
  have each := completes_le_drew run fresh
  refine ⟨each, ?_⟩
  have total : (c.log.countP fun entry => (completedState entry).isSome) ≤
      c.jobs.countP fun job => (drawnState job).isSome := by
    refine countP_le_of_keys fun csrf => ?_
    rw [← funext (completes_eq csrf), ← funext (drew_eq csrf)]
    exact each csrf
  calc c.log.countP createsSession
      ≤ c.log.countP fun entry => (completedState entry).isSome :=
        List.countP_mono_left fun entry member created =>
          (consoleTrace run).creates member created
    _ ≤ c.jobs.countP fun job => (drawnState job).isSome := total
    _ = c.jobs.countP ConsoleJob.isLogin := by rw [funext ConsoleJob.isLogin_eq]

end Authority

/-! ## A console with one operator -/

namespace Sample

/-- An identity provider that knows one id token. -/
def oidc : Oidc where
  challenge verifier := verifier
  authorizeUrl challenge csrf nonce :=
    "https://id.example.com/?challenge=" ++ challenge ++ "&state=" ++ csrf ++ "&nonce=" ++ nonce
  exchangeCode _ := .ok ()
  claims idToken nonce :=
    if idToken = "token" ∧ nonce = "nonce" then .ok ⟨"subject", some "Op@example.com"⟩
    else .error "nonce mismatch"

/-- The value of a name in a cookie header. -/
def cookie (header name : String) : Option String :=
  (header.toList.splitOn ';').findSome? fun pair =>
    match (pair.dropWhile (· = ' ')).splitOn '=' with
    | [key, value] => if key = name.toList then some (String.ofList value) else none
    | _ => none

/-- A console with one operator. -/
def desk : Desk :=
  ⟨WaitingRoom.Sample.console, oidc, some "op@example.com, ", cookie, String.ofList⟩

/-- No login and no session. -/
def signedOut : ConsoleState := ⟨fun _ => none, WaitingRoom.Sample.quiet⟩

/-- The request that starts the login. -/
def start : ConsoleJob := .login ⟨"verifier", "state", "nonce"⟩ ⟨1000000000⟩

/-- The request that brings it back. -/
def wayBack : ConsoleJob :=
  .callback (some "vwr_admin_login_state=state") "code" "state" (some fun _ => 0) ⟨2000000000⟩

/-- The operator posts a message. -/
def post : ConsoleJob :=
  .action (some "theme=dark; vwr_admin_session=00000000-07d0-7000-8000-000000000000")
    (.message "soon") ⟨3000000000⟩

/-- A thread's next request, which its store answers. -/
def next (thread : ℕ) (choice : ConsoleChoice) : Action ConsoleJob ConsoleChoice :=
  .advance thread choice

/-- A login, and a message by its operator. -/
def signedIn : List (Action ConsoleJob ConsoleChoice) :=
  [.start start, next 0 (.tokens [] .commit), .start wayBack, next 1 (.tokens [] .commit),
    next 1 (.provider (.ok (some "token"))), next 1 (.tokens [] .commit), .start post,
    next 2 (.tokens [] .commit), next 2 (.operators (.tables .commit))]

/-- A request reaches the operators' stores. -/
def reaches (entry : ConsoleEntry) : Bool :=
  match entry.exchange.call with
  | .operators _ => true
  | _ => false

theorem fresh : Fresh signedOut := fun _ => rfl

end Sample

/-- The operator of the login posts a message. -/
theorem actions_follow_logins_sample : ∃ c : ConsoleRoom,
    ConsoleRun Sample.desk Sample.signedOut c ∧ ∃ newer entry older, c.log = newer ++ entry :: older ∧
      Sample.reaches entry ∧ ∃ login : CompletedLogin, Completed Sample.desk older login := by
  obtain ⟨c, run, good⟩ := System.exists_reaches_of_run
    (show ((console Sample.desk).run .free (.initial Sample.signedOut) Sample.signedIn).any
      (fun c => c.log.any Sample.reaches) by
      decide +kernel)
  obtain ⟨entry, member, reached⟩ := List.any_eq_true.mp good
  obtain ⟨newer, older, split⟩ := List.append_of_mem member
  obtain ⟨call, sends⟩ : ∃ call, entry.exchange.call = .operators call := by
    unfold Sample.reaches at reached
    split at reached
    · rename_i call sends
      exact ⟨call, sends⟩
    · cases reached
  obtain ⟨-, -, -, -, login, -, -, -, -, -, completed⟩ :=
    actions_follow_logins run Sample.fresh split sends
  exact ⟨c, run, newer, entry, older, split, reached, login, completed⟩

/-- The login is completed once, and a way back that repeats it is refused. -/
theorem sessions_le_logins_sample : ∃ c : ConsoleRoom,
    ConsoleRun Sample.desk Sample.signedOut c ∧ c.log.countP (completes "state") = 1 ∧
      c.log.countP (completes "state") ≤ c.jobs.countP (drew "state") ∧
      c.log.countP createsSession ≤ c.jobs.countP ConsoleJob.isLogin := by
  obtain ⟨c, run, good⟩ := System.exists_reaches_of_run
    (show ((console Sample.desk).run .free (.initial Sample.signedOut) (Sample.signedIn ++
      [.start Sample.wayBack, Sample.next 3 (.tokens [] .commit)])).any
      (fun c => decide (c.log.countP (completes "state") = 1)) by
      decide +kernel)
  obtain ⟨each, total⟩ := sessions_le_logins run Sample.fresh
  exact ⟨c, run, of_decide_eq_true good, each "state", total⟩

end WaitingRoom.Console
