import WaitingRoom.Console.Login

/-!
# What the console's requests may do

Each request obeys a protocol of its own, whatever the stores and the provider answer: the way back
deletes a pending row before anything else and writes a session only for a login it consumed and an
id token it verified, and an action reaches the operators' stores only behind a session it loaded
(`console_obeys`). A row that the table holds was written by a request of the log
(`ConsoleTrace.written`).
-/

set_option autoImplicit false

namespace WaitingRoom.Console

open Dynamo Concurrency

/-- The exchanges of one request of the console, latest first. -/
abbrev ConsoleHistory := List (Exchange ConsoleStores)

/-- A request on the table and its answer. -/
abbrev tokensAnswered (call : TokensCall) (answer : Except String (TokensPayload call)) :
    Exchange ConsoleStores := ⟨.tokens call, answer⟩

/-- A token request and its answer. -/
abbrev redeemed (code pkceVerifier : String) (answer : Except String (Option String)) :
    Exchange ConsoleStores := ⟨.tokenRequest code pkceVerifier, answer⟩

/-- A request has written no session. -/
def CreatesNothing (history : ConsoleHistory) : Prop :=
  ∀ exchange ∈ history, ∀ id attributes, exchange.call ≠ .tokens (.putItem (.oidcSession id) attributes)

/-- A way back consumed the login of its own browser and verified an id token for it. -/
structure Vouched (desk : Desk) (history : ConsoleHistory) (cookies : Option String)
    (code state : String) (now : ArrivalTime) (pending : PendingLogin) (claims : Claims) : Prop where
  bound : desk.cookieValue cookies stateCookie = some state
  consumed : ∃ item, tokensAnswered (.deleteItem (.pkceTransaction state)) (.ok (some item)) ∈ history ∧
    pendingLoginFrom (some item) now.epochSeconds = some pending
  verified : ∃ idToken, redeemed code pending.pkceVerifier (.ok (some idToken)) ∈ history ∧
    desk.oidc.claims idToken pending.nonce = .ok claims
  allowed : toAsciiLowercase claims.address ∈ desk.allowedEmails

/-- A request writes the session of a login it vouched for. -/
structure CreatesSession (desk : Desk) (job : ConsoleJob) (history : ConsoleHistory) (id : String)
    (attributes : Item) (code state : String) (cookies : Option String) (random : Fin 10 → UInt8)
    (now : ArrivalTime) (pending : PendingLogin) (claims : Claims) : Prop where
  serves : job = .callback cookies code state (some random) now
  vouched : Vouched desk history cookies code state now pending claims
  once : CreatesNothing history
  drawn : id = requestIdAt now.millis random
  row : attributes = sessionRow id ⟨claims.subject, claims.address⟩ now

/-- A request acts as the operator of a session it loaded. -/
structure ActsAs (desk : Desk) (job : ConsoleJob) (history : ConsoleHistory) (call : OperatorCall)
    (cookies : Option String) (form : ActionForm) (now : ArrivalTime) (id : String) (item : Item)
    (session : AdminSession) (apply : Apply) : Prop where
  serves : job = .action cookies form now
  presented : desk.sessionIdFrom cookies = some id
  loaded : tokensAnswered (.getItem (.oidcSession id)) (.ok (some item)) ∈ history
  alive : adminSessionFrom (some item) now.epochSeconds = some session
  asked : desk.apply form = .ok apply
  makes : (apply session.email now).Makes call

/-- The requests a job may make. -/
def legal (desk : Desk) (job : ConsoleJob) (history : ConsoleHistory) : ConsoleCall → Prop
  | .tokens (.putItem (.pkceTransaction state) attributes) => ∃ draw now,
      history = [] ∧ job = .login draw now ∧ state = draw.csrf ∧
        attributes = pendingRow draw.csrf ⟨draw.pkceVerifier, draw.nonce⟩ now
  | .tokens (.putItem (.oidcSession id) attributes) =>
      ∃ code state cookies random now pending claims,
        CreatesSession desk job history id attributes code state cookies random now pending claims
  | .operators call => ∃ cookies form now id item session apply,
      ActsAs desk job history call cookies form now id item session apply
  | .tokens (.deleteItem _) | .tokens (.getItem _) | .tokenRequest _ _ => True

section Programs

variable {desk : Desk} {job : ConsoleJob} {history : ConsoleHistory}

/-- A protocol without an obligation at the end. -/
abbrev Lawful (desk : Desk) (job : ConsoleJob) (history : ConsoleHistory)
    (program : Program ConsoleStores Response) : Prop :=
  Obeys (legal desk job) (fun _ _ => True) history program

theorem login_lawful (desk : Desk) (draw : LoginDraw) (now : ArrivalTime) :
    Lawful desk (.login draw now) [] (login desk draw now) := by
  refine ⟨⟨draw, now, rfl, rfl, rfl, rfl⟩, fun answer => ?_⟩
  cases answer <;> exact trivial

theorem establish_lawful {cookies : Option String} {code state : String}
    {random : Option (Fin 10 → UInt8)} {now : ArrivalTime} {pending : PendingLogin} {claims : Claims}
    (bound : desk.cookieValue cookies stateCookie = some state)
    (consumed : ∃ item,
      tokensAnswered (.deleteItem (.pkceTransaction state)) (.ok (some item)) ∈ history ∧
        pendingLoginFrom (some item) now.epochSeconds = some pending)
    (verified : ∃ idToken, redeemed code pending.pkceVerifier (.ok (some idToken)) ∈ history ∧
      desk.oidc.claims idToken pending.nonce = .ok claims)
    (once : CreatesNothing history) :
    Lawful desk (.callback cookies code state random now) history
      (establish desk claims random now) := by
  unfold establish
  by_cases allowed : toAsciiLowercase claims.address ∈ desk.allowedEmails
  · rw [if_neg (not_not.mpr allowed)]
    cases random with
    | none => exact trivial
    | some random =>
        refine ⟨⟨code, state, cookies, random, now, pending, claims, ?_⟩, fun answer => ?_⟩
        · exact ⟨rfl, ⟨bound, consumed, verified, allowed⟩, once, rfl, rfl⟩
        · cases answer <;> exact trivial
  · rw [if_pos allowed]
    exact trivial

theorem callback_lawful (desk : Desk) (cookies : Option String) (code state : String)
    (random : Option (Fin 10 → UInt8)) (now : ArrivalTime) :
    Lawful desk (.callback cookies code state random now) []
      (callback desk cookies code state random now) := by
  unfold callback
  by_cases bound : desk.cookieValue cookies stateCookie = some state
  swap
  · rw [if_pos bound]
    exact trivial
  rw [if_neg (not_not.mpr bound)]
  refine ⟨trivial, fun answer => ?_⟩
  rcases answer with error | attributes
  · exact trivial
  cases taken : pendingLoginFrom attributes now.epochSeconds with
  | none =>
      simp only [Program.bind, Program.pure_eq, taken]
      exact trivial
  | some pending =>
      obtain ⟨item, rfl⟩ : ∃ item, attributes = some item := by
        cases attributes with
        | none => cases taken
        | some item => exact ⟨item, rfl⟩
      simp only [Program.bind, Program.pure_eq, taken, redeemCode]
      cases desk.oidc.exchangeCode code with
      | error error => exact trivial
      | ok done =>
          refine ⟨trivial, fun answer => ?_⟩
          rcases answer with error | (_ | idToken)
          · exact trivial
          · exact trivial
          simp only [Program.bind]
          cases verified : desk.oidc.claims idToken pending.nonce with
          | error error => exact trivial
          | ok claims =>
              refine establish_lawful bound ⟨item, by simp, taken⟩ ⟨idToken, by simp, verified⟩ ?_
              simp [CreatesNothing]

theorem logout_lawful (desk : Desk) (cookies : Option String) :
    Lawful desk (.logout cookies) [] (logout desk cookies) := by
  unfold logout
  cases desk.sessionIdFrom cookies with
  | none => exact trivial
  | some id =>
      refine ⟨trivial, fun answer => ?_⟩
      cases answer <;> exact trivial

theorem action_lawful (desk : Desk) (cookies : Option String) (form : ActionForm) (now : ArrivalTime) :
    Lawful desk (.action cookies form now) [] (action desk cookies form now) := by
  unfold action authed
  cases presented : desk.sessionIdFrom cookies with
  | none => exact trivial
  | some id =>
      refine ⟨trivial, fun answer => ?_⟩
      rcases answer with error | attributes
      · exact trivial
      cases alive : adminSessionFrom attributes now.epochSeconds with
      | none =>
          simp only [Program.bind, Program.pure_eq, alive]
          exact trivial
      | some session =>
          obtain ⟨item, rfl⟩ : ∃ item, attributes = some item := by
            cases attributes with
            | none => cases alive
            | some item => exact ⟨item, rfl⟩
          simp only [Program.bind, Program.pure_eq, alive]
          cases applied : desk.apply form with
          | error response => exact trivial
          | ok apply =>
              refine Obeys.bind (obeys_lift fun newer call makes => ?_) fun _ _ _ => trivial
              exact ⟨cookies, form, now, id, item, session, apply,
                ⟨rfl, presented, List.mem_append_right _ (by simp), alive, applied, makes⟩⟩

/-- **Every request of the console obeys its protocol, whatever it is answered.** -/
theorem console_obeys (desk : Desk) (job : ConsoleJob) :
    Obeys (legal desk job) (fun _ _ => True) [] ((console desk).program job) := by
  cases job with
  | login draw now => exact login_lawful desk draw now
  | callback cookies code state random now =>
      exact callback_lawful desk cookies code state random now
  | logout cookies => exact logout_lawful desk cookies
  | action cookies form now => exact action_lawful desk cookies form now

end Programs

/-! ## The table -/

section Table

variable {desk : Desk} {origin state : ConsoleState} {log older : List ConsoleEntry}
  {entry : ConsoleEntry}

/-- The log of a run of the console. -/
abbrev ConsoleTrace (desk : Desk) (origin : ConsoleState) (log : List ConsoleEntry)
    (state : ConsoleState) : Prop :=
  Trace (console desk) .free (legal desk) origin log state

theorem consoleTrace {c : ConsoleRoom} (run : ConsoleRun desk origin c) :
    ConsoleTrace desk origin c.log c.state :=
  System.Reaches.trace run fun job => console_obeys desk job

theorem sweep_eq_some {reclaimed : List String} {tokens : Tokens} {key : String} {item : Item}
    (held : sweep reclaimed tokens key = some item) : tokens key = some item := by
  rw [sweep] at held
  split_ifs at held
  exact held

/-- What a request does to a row: it leaves it, removes it or writes it. -/
theorem performTokens_cases (call : TokensCall) (tokens : Tokens) (key : String) :
    (performTokens call tokens).2 key = tokens key ∨ (performTokens call tokens).2 key = none ∨
      ∃ written attributes, call = .putItem written attributes ∧ written.value = key ∧
        (performTokens call tokens).2 key = some attributes := by
  cases call with
  | putItem written attributes =>
      by_cases mine : written.value = key
      · exact .inr (.inr ⟨written, attributes, rfl, mine, by rw [← mine]; exact Function.update_self ..⟩)
      · exact .inl (Function.update_of_ne (Ne.symm mine) _ _)
  | deleteItem deleted =>
      by_cases mine : deleted.value = key
      · exact .inr (.inl (by rw [← mine]; exact Function.update_self ..))
      · exact .inl (Function.update_of_ne (Ne.symm mine) _ _)
  | getItem _ => exact .inl rfl

/-- The rows after a request on the table are those that were not reclaimed, or what the request
makes of them. -/
theorem respondTokens_state {call : TokensCall} {outcome : TokensOutcome} {past : List Tokens}
    {tokens tokens' : Tokens} {answer : Except String (TokensPayload call)}
    (responds : respondTokens call outcome past tokens = some (answer, tokens')) :
    tokens' = tokens ∨ tokens' = (performTokens call tokens).2 := by
  cases outcome with
  | commit =>
      obtain ⟨-, rfl⟩ := Prod.mk.inj (Option.some.inj responds)
      exact .inr rfl
  | lost error =>
      obtain ⟨-, rfl⟩ := Prod.mk.inj (Option.some.inj responds)
      exact .inl rfl
  | landed error =>
      obtain ⟨-, rfl⟩ := Prod.mk.inj (Option.some.inj responds)
      exact .inr rfl
  | stale age =>
      rw [respondTokens] at responds
      split_ifs at responds
      obtain ⟨old, -, same⟩ := Option.map_eq_some_iff.mp responds
      exact .inl (Prod.mk.inj same).2.symm

/-- A request that was answered is one on the table, to the provider or on the operators' stores. -/
theorem respondConsole_tokens {call : ConsoleCall} {choice : ConsoleChoice}
    {past : List ConsoleState} {before after : ConsoleState} {answer : ConsoleAnswer call}
    (responds : respondConsole call choice past before = some (answer, after)) {key : String}
    {item : Item} (held : after.tokens key = some item) :
    before.tokens key = some item ∨
      ∃ written, call = .tokens (.putItem written item) ∧ written.value = key := by
  cases call with
  | tokens call =>
      cases choice with
      | tokens reclaimed outcome =>
          obtain ⟨⟨answer', tokens'⟩, replied, same⟩ := Option.map_eq_some_iff.mp responds
          obtain ⟨-, rfl⟩ := Prod.mk.inj same
          rcases respondTokens_state replied with rfl | rfl
          · exact .inl (sweep_eq_some held)
          · rcases performTokens_cases call (sweep reclaimed before.tokens) key with kept | gone |
              ⟨written, attributes, rfl, mine, put⟩
            · exact .inl (sweep_eq_some (kept.symm.trans held))
            · exact absurd (gone.symm.trans held) (Option.some_ne_none item).symm
            · obtain rfl := Option.some.inj (put.symm.trans held)
              exact .inr ⟨written, rfl, mine⟩
      | provider reply => cases responds
      | operators choice => cases responds
  | tokenRequest code verifier =>
      cases choice with
      | provider reply =>
          obtain ⟨-, rfl⟩ := Prod.mk.inj (Option.some.inj responds)
          exact .inl held
      | tokens reclaimed outcome => cases responds
      | operators choice => cases responds
  | operators call =>
      cases choice with
      | operators choice =>
          obtain ⟨reply, -, same⟩ := Option.map_eq_some_iff.mp responds
          obtain ⟨-, rfl⟩ := Prod.mk.inj same
          exact .inl held
      | tokens reclaimed outcome => cases responds
      | provider reply => cases responds

/-- The table starts empty. -/
def Fresh (origin : ConsoleState) : Prop := ∀ key, origin.tokens key = none

/-- A request of the log wrote a row. -/
def Written (log : List ConsoleEntry) (key : String) (item : Item) : Prop :=
  ∃ newer entry older written, log = newer ++ entry :: older ∧
    entry.exchange.call = .tokens (.putItem written item) ∧ written.value = key

theorem Written.cons {key : String} {item : Item} (written : Written log key item)
    (entry : ConsoleEntry) : Written (entry :: log) key item := by
  obtain ⟨newer, found, older, key', rfl, call, mine⟩ := written
  exact ⟨entry :: newer, found, older, key', rfl, call, mine⟩

/-- **A row that the table holds was written by a request of the log.** -/
theorem ConsoleTrace.written (trace : ConsoleTrace desk origin log state) (fresh : Fresh origin)
    {key : String} {item : Item} (held : state.tokens key = some item) : Written log key item := by
  induction trace with
  | nil =>
      rw [fresh key] at held
      cases held
  | cons earlier _ _ responds ih =>
      rcases respondConsole_tokens responds held with before | ⟨written, rfl, mine⟩
      · exact (ih before).cons _
      · exact ⟨[], _, _, written, rfl, rfl, mine⟩

/-- What a read answers was in the table once. -/
theorem ConsoleTrace.read (trace : ConsoleTrace desk origin older state) {choice : ConsoleChoice}
    {key : TokenKey} {item : Item} {after : ConsoleState}
    (responds : respondConsole (.tokens (.getItem key)) choice (past older) state =
      some (.ok (some item), after)) :
    ∃ newest oldest old, older = newest ++ oldest ∧ ConsoleTrace desk origin oldest old ∧
      old.tokens key.value = some item := by
  cases choice with
  | tokens reclaimed outcome =>
      obtain ⟨⟨answer, tokens⟩, replied, same⟩ := Option.map_eq_some_iff.mp responds
      obtain ⟨rfl, -⟩ := Prod.mk.inj same
      cases outcome with
      | commit =>
          obtain ⟨found, -⟩ := Prod.mk.inj (Option.some.inj replied)
          exact ⟨[], older, state, rfl, trace, sweep_eq_some (Except.ok.inj found)⟩
      | lost error =>
          obtain ⟨found, -⟩ := Prod.mk.inj (Option.some.inj replied)
          cases found
      | landed error =>
          obtain ⟨found, -⟩ := Prod.mk.inj (Option.some.inj replied)
          cases found
      | stale age =>
          simp only [respondTokens, TokensCall.isRead, if_true] at replied
          obtain ⟨old, aged, same⟩ := Option.map_eq_some_iff.mp replied
          have found := Except.ok.inj (Prod.mk.inj same).1
          obtain ⟨before, earlier, rfl⟩ := List.mem_map.mp (List.mem_of_getElem? aged)
          obtain ⟨newest, oldest, whole, once⟩ := trace.of_past earlier
          exact ⟨newest, oldest, before, whole, once, found⟩
  | provider reply => cases responds
  | operators choice => cases responds

/-- A deletion answers with the row that was there. -/
theorem respondConsole_deleted {choice : ConsoleChoice} {past : List ConsoleState}
    {key : TokenKey} {item : Item} {before after : ConsoleState}
    (responds : respondConsole (.tokens (.deleteItem key)) choice past before =
      some (.ok (some item), after)) :
    before.tokens key.value = some item ∧ after.tokens key.value = none := by
  cases choice with
  | tokens reclaimed outcome =>
      obtain ⟨⟨answer, tokens⟩, replied, same⟩ := Option.map_eq_some_iff.mp responds
      obtain ⟨rfl, rfl⟩ := Prod.mk.inj same
      cases outcome with
      | commit =>
          obtain ⟨found, rfl⟩ := Prod.mk.inj (Option.some.inj replied)
          exact ⟨sweep_eq_some (Except.ok.inj found), Function.update_self ..⟩
      | lost error =>
          obtain ⟨found, -⟩ := Prod.mk.inj (Option.some.inj replied)
          cases found
      | landed error =>
          obtain ⟨found, -⟩ := Prod.mk.inj (Option.some.inj replied)
          cases found
      | stale age =>
          simp [respondTokens, TokensCall.isRead] at replied
  | provider reply => cases responds
  | operators choice => cases responds

end Table

end WaitingRoom.Console
