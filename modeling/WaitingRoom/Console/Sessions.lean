import WaitingRoom.Common.Uuid
import WaitingRoom.Operators

/-!
# Login transactions and sessions

A pending login and a session are rows of one table, under keys that never meet
(`TokenKey.value_injective`). Both carry the second they expire at. The table reclaims a row at some
later time of its own, so the readers compare it themselves: a row is read back as it was written
until then and not after (`pendingLoginFrom_pendingRow`, `adminSessionFrom_sessionRow`).

The table belongs to a console beside the operators' stores. The environment picks which rows are
reclaimed before a request, which request fails and which failed one still landed, and which read is
stale.
-/

set_option autoImplicit false

namespace WaitingRoom.Console

open Dynamo Concurrency

/-! ## Rows -/

/-- How long a pending login lives, in seconds. -/
def pkceTtlSecs : ℕ := 600

/-- How long a session lives, in seconds. -/
def sessionTtlSecs : ℕ := 8 * 60 * 60

/-- The attribute with the second a row expires at. -/
def tokensTtlAttr : String := "expires_at"

/-- The attribute of the key. -/
def tokensKeyAttr : String := "request_id"

/-- Which row of the table a key addresses. -/
inductive TokenKey where
  | oidcSession (sessionId : String)
  | pkceTransaction (state : String)
  deriving DecidableEq

/-- The text of a key. -/
def TokenKey.value : TokenKey → String
  | .oidcSession sessionId => "SESS#" ++ sessionId
  | .pkceTransaction state => "PKCE#" ++ state

/-- **A session and a pending login never share a row.** -/
theorem TokenKey.value_injective : Function.Injective TokenKey.value := by
  have first : ∀ a b : String, "SESS#" ++ a ≠ "PKCE#" ++ b := by
    intro a b same
    have letters := congrArg (fun text : String => text.toList.head?) same
    simp at letters
  intro key key' same
  cases key with
  | oidcSession id =>
      cases key' with
      | oidcSession id' => rw [String.append_right_inj _ |>.mp same]
      | pkceTransaction state' => exact absurd same (first _ _)
  | pkceTransaction state =>
      cases key' with
      | oidcSession id' => exact absurd same.symm (first _ _)
      | pkceTransaction state' => rw [String.append_right_inj _ |>.mp same]

/-- A login between the redirect to the provider and the way back. -/
structure PendingLogin where
  pkceVerifier : String
  nonce : String
  deriving DecidableEq

/-- An authenticated operator. -/
structure AdminSession where
  subject : String
  email : String
  deriving DecidableEq

/-- A session store failure. -/
inductive SessionError where
  | backend (message : String)
  | rng
  deriving DecidableEq

/-- A row with nothing but its key. -/
def TokenKey.build (key : TokenKey) : Item := Item.empty.put tokensKeyAttr (.S key.value)

/-- The row of a pending login that arrived at `now`. -/
def pendingRow (state : String) (pending : PendingLogin) (now : ArrivalTime) : Item :=
  (((TokenKey.pkceTransaction state).build.put "pkce_verifier" (.S pending.pkceVerifier)).put
    "nonce" (.S pending.nonce)).put tokensTtlAttr (.N (saturatingAdd now.epochSeconds pkceTtlSecs : ℕ))

/-- The row of a session that was created at `now`. -/
def sessionRow (sessionId : String) (session : AdminSession) (now : ArrivalTime) : Item :=
  (((TokenKey.oidcSession sessionId).build.put "subject" (.S session.subject)).put
    "email" (.S session.email)).put tokensTtlAttr
      (.N (saturatingAdd now.epochSeconds sessionTtlSecs : ℕ))

/-- A row is past the second it expires at. -/
def expired (item : Item) (now : ℕ) : Bool :=
  (num item tokensTtlAttr).any fun exp => decide (exp ≤ now)

/-- The pending login of a consumed row. -/
def pendingLoginFrom (attributes : Option Item) (now : ℕ) : Option PendingLogin := do
  let item ← attributes
  if expired item now then none
  else
    match str item "pkce_verifier", str item "nonce" with
    | some pkceVerifier, some nonce => some ⟨pkceVerifier, nonce⟩
    | _, _ => none

/-- The session of a loaded row. -/
def adminSessionFrom (attributes : Option Item) (now : ℕ) : Option AdminSession := do
  let item ← attributes
  if expired item now then none
  else
    match str item "subject", str item "email" with
    | some subject, some email => some ⟨subject, email⟩
    | _, _ => none

theorem expired_put (item : Item) (exp now : ℕ) (inside : exp < u64Bound) :
    expired (item.put tokensTtlAttr (.N exp)) now = decide (exp ≤ now) := by
  rw [expired, num, Item.put_self, Option.bind_some, AttributeValue.asUnsigned_natCast inside,
    Option.any_some]

/-- **A pending login is read back until it expires.** -/
theorem pendingLoginFrom_pendingRow (state : String) (pending : PendingLogin) (started : ArrivalTime)
    (now : ℕ) :
    pendingLoginFrom (some (pendingRow state pending started)) now =
      if saturatingAdd started.epochSeconds pkceTtlSecs ≤ now then none else some pending := by
  simp only [pendingLoginFrom, Option.bind_eq_bind, Option.bind_some, pendingRow,
    expired_put _ _ _ (saturatingAdd_lt _ _), decide_eq_true_eq]
  rfl

/-- **A session is read back until it expires.** -/
theorem adminSessionFrom_sessionRow (sessionId : String) (session : AdminSession)
    (created : ArrivalTime) (now : ℕ) :
    adminSessionFrom (some (sessionRow sessionId session created)) now =
      if saturatingAdd created.epochSeconds sessionTtlSecs ≤ now then none else some session := by
  simp only [adminSessionFrom, Option.bind_eq_bind, Option.bind_some, sessionRow,
    expired_put _ _ _ (saturatingAdd_lt _ _), decide_eq_true_eq]
  rfl

/-! ## The stores -/

/-- A request on the table. -/
inductive TokensCall where
  | putItem (key : TokenKey) (attributes : Item)
  | deleteItem (key : TokenKey)
  | getItem (key : TokenKey)

/-- What a request on the table is answered with: a deletion with the attributes it removed. -/
@[reducible] def TokensPayload : TokensCall → Type
  | .putItem _ _ => Unit
  | .deleteItem _ => Option Item
  | .getItem _ => Option Item

/-- A request of the console: on the table, to the token endpoint of the identity provider, or on
the operators' stores. -/
inductive ConsoleCall where
  | tokens (call : TokensCall)
  | tokenRequest (code pkceVerifier : String)
  | operators (call : OperatorCall)

/-- What a request of the console is answered with. A token response may lack the id token. -/
@[reducible] def ConsoleAnswer : ConsoleCall → Type
  | .tokens call => Except String (TokensPayload call)
  | .tokenRequest _ _ => Except String (Option String)
  | .operators call => Except StoreError (OperatorPayload call)

/-- The requests of the console and their answers. -/
abbrev ConsoleStores : Interface where
  Call := ConsoleCall
  Answer := ConsoleAnswer

/-- The rows of the table, by the text of their keys. -/
abbrev Tokens := String → Option Item

/-- The table and the operators' stores. -/
structure ConsoleState where
  tokens : Tokens
  operators : OperatorState

/-- What a request on the table does and answers. -/
def performTokens : (call : TokensCall) → Tokens → TokensPayload call × Tokens
  | .putItem key attributes, tokens => ((), Function.update tokens key.value (some attributes))
  | .deleteItem key, tokens => (tokens key.value, Function.update tokens key.value none)
  | .getItem key, tokens => (tokens key.value, tokens)

/-- Reclaim rows. -/
def sweep (reclaimed : List String) (tokens : Tokens) : Tokens :=
  fun key => if key ∈ reclaimed then none else tokens key

/-- How the environment lets a request on the table go. -/
inductive TokensOutcome where
  | commit
  | lost (error : String)
  | landed (error : String)
  | stale (age : ℕ)

/-- What the environment may do with a request. -/
inductive ConsoleChoice where
  | tokens (reclaimed : List String) (outcome : TokensOutcome)
  | provider (reply : Except String (Option String))
  | operators (choice : OperatorChoice)

/-- A read of the table. -/
def TokensCall.isRead : TokensCall → Bool
  | .getItem _ => true
  | .putItem _ _ | .deleteItem _ => false

/-- How the table answers a request. -/
def respondTokens (call : TokensCall) (outcome : TokensOutcome) (past : List Tokens)
    (tokens : Tokens) : Option (Except String (TokensPayload call) × Tokens) :=
  match outcome with
  | .commit => some (.ok (performTokens call tokens).1, (performTokens call tokens).2)
  | .lost error => some (.error error, tokens)
  | .landed error => some (.error error, (performTokens call tokens).2)
  | .stale age =>
      if call.isRead then past[age]?.map fun old => (.ok (performTokens call old).1, tokens) else none

/-- How the stores answer a request. -/
def respondConsole (call : ConsoleCall) (choice : ConsoleChoice) (past : List ConsoleState)
    (state : ConsoleState) : Option (ConsoleAnswer call × ConsoleState) :=
  match call, choice with
  | .tokens call, .tokens reclaimed outcome =>
      (respondTokens call outcome (past.map ConsoleState.tokens) (sweep reclaimed state.tokens)).map
        fun reply => (reply.1, { state with tokens := reply.2 })
  | .tokenRequest _ _, .provider reply => some (reply, state)
  | .operators call, .operators choice =>
      (respondOperator call choice (past.map ConsoleState.operators) state.operators).map
        fun reply => (reply.1, { state with operators := reply.2 })
  | _, _ => none

/-- The requests on the operators' stores. -/
def inOperators : Embedding OperatorStores ConsoleStores := ⟨.operators, fun _ answer => answer⟩

/-! ## The session store -/

/-- Send a request on the table, with its name in front of its error. -/
def sendTokens (call : TokensCall) (name : String) :
    Program ConsoleStores (Except SessionError (TokensPayload call)) := do
  match ← Program.ask (I := ConsoleStores) (.tokens call) with
  | .error error => return .error (.backend (name ++ ": " ++ error))
  | .ok payload => return .ok payload

/-- Persist a pending login. -/
def putPending (state : String) (pending : PendingLogin) (now : ArrivalTime) :
    Program ConsoleStores (Except SessionError Unit) :=
  sendTokens (.putItem (.pkceTransaction state) (pendingRow state pending now)) "put_pending"

/-- Consume a pending login. -/
def takePending (state : String) (now : ArrivalTime) :
    Program ConsoleStores (Except SessionError (Option PendingLogin)) := do
  match ← sendTokens (.deleteItem (.pkceTransaction state)) "take_pending" with
  | .error error => return .error error
  | .ok attributes => return .ok (pendingLoginFrom attributes now.epochSeconds)

/-- The id of a session, whose random bytes are `none` when they cannot be drawn. -/
def sessionId (now : ArrivalTime) (random : Option (Fin 10 → UInt8)) : Except SessionError String :=
  match random with
  | none => .error .rng
  | some random => .ok (requestIdAt now.millis random)

/-- Create a session and return its id. -/
def createSession (session : AdminSession) (now : ArrivalTime) (random : Option (Fin 10 → UInt8)) :
    Program ConsoleStores (Except SessionError String) := do
  match sessionId now random with
  | .error error => return .error error
  | .ok id =>
      match ← sendTokens (.putItem (.oidcSession id) (sessionRow id session now)) "create_session" with
      | .error error => return .error error
      | .ok () => return .ok id

/-- Load a session. -/
def loadSession (id : String) (now : ArrivalTime) :
    Program ConsoleStores (Except SessionError (Option AdminSession)) := do
  match ← sendTokens (.getItem (.oidcSession id)) "load_session" with
  | .error error => return .error error
  | .ok item => return .ok (adminSessionFrom item now.epochSeconds)

/-- Delete a session. -/
def deleteSession (id : String) : Program ConsoleStores (Except SessionError Unit) := do
  match ← sendTokens (.deleteItem (.oidcSession id)) "delete_session" with
  | .error error => return .error error
  | .ok _ => return .ok ()

end WaitingRoom.Console
