import WaitingRoom.Console.Sessions
import WaitingRoom.Edge.RuleForm

/-!
# The console's requests

A login writes a pending row under a state it drew and sends the browser to the provider. The way
back has to present that state in the browser's cookie as well as in the request; it consumes the
row, exchanges the code with the row's verifier, checks the id token against the row's nonce and the
email against the allowlist, and only then creates a session. Every action loads the session of its
cookie first, and runs as its operator.
-/

set_option autoImplicit false

namespace WaitingRoom.Console

open Dynamo Concurrency

/-! ## Deployment -/

/-- What an id token says. -/
structure Claims where
  subject : String
  email : Option String

/-- The identity provider's client: the challenge of a verifier, the address a browser is sent to,
whether a code can be exchanged, and the claims of an id token that is valid for a nonce. -/
structure Oidc where
  challenge : String → String
  authorizeUrl : String → String → String → String
  exchangeCode : String → Except String Unit
  claims : String → String → Except String Claims

/-- What the console is deployed with. The cookie of a name is found in the text of a `Cookie` header
by `cookie`, and `debug` quotes a text. -/
structure Desk where
  operators : Deployment
  oidc : Oidc
  oidcAllowedEmails : Option String
  cookie : String → String → Option String
  debug : List Char → String

/-- `str::to_ascii_lowercase`. -/
def toAsciiLowercase (text : String) : String := text.map Char.toLower

/-- The emails that may hold a session. Nobody may when none is configured. -/
def Desk.allowedEmails (desk : Desk) : List String :=
  (((desk.oidcAllowedEmails.getD "").toList.splitOn ',').map fun entry =>
    toAsciiLowercase (Schedule.trim (String.ofList entry))).filter (· ≠ "")

/-- The cookie of the session. -/
def sessionCookie : String := "vwr_admin_session"

/-- The cookie that binds a login to the browser that started it. -/
def stateCookie : String := "vwr_admin_login_state"

/-- The value of a named cookie of a request. -/
def Desk.cookieValue (desk : Desk) (cookies : Option String) (name : String) : Option String :=
  (cookies.bind Text.headerText).bind fun raw => desk.cookie raw name

/-- The session id of a request. -/
def Desk.sessionIdFrom (desk : Desk) (cookies : Option String) : Option String :=
  desk.cookieValue cookies sessionCookie

/-! ## Responses -/

/-- A cookie a response sets. -/
structure SetCookie where
  name : String
  value : String
  maxAge : ℕ
  deriving DecidableEq

/-- The header of a cookie. -/
def SetCookie.text (cookie : SetCookie) : String :=
  cookie.name ++ "=" ++ cookie.value ++ "; Path=/; HttpOnly; Secure; SameSite=Lax; Max-Age=" ++
    cookie.maxAge.repr

/-- A response of the console. -/
structure Response where
  status : ℕ
  location : Option String
  cookies : List SetCookie
  body : String
  deriving DecidableEq

/-- A redirect. -/
def seeOther (location : String) (cookies : List SetCookie) : Response :=
  ⟨303, some location, cookies, ""⟩

/-- A refusal with its reason. -/
def refusal (status : ℕ) (reason : String) : Response := ⟨status, none, [], reason⟩

/-- An error that is only logged. -/
def serverError : Response := refusal 500 "internal error"

/-- How a phase is printed in an error. -/
def debugPhase : Phase → String
  | .idle => "Idle"
  | .preQueue => "PreQueue"
  | .active => "Active"
  | .postEvent => "PostEvent"
  | .maintenance => "Maintenance"

/-- The text of a rejected action. -/
def actionMessage : ActionError → String
  | .unknownPhase => "unknown phase"
  | .illegalTransition source target =>
      "illegal transition from " ++ debugPhase source ++ " to " ++ debugPhase target
  | .invalidRate => "invalid rate"
  | .rateTooHigh max => "rate exceeds the maximum of " ++ max.repr
  | .invalidDuration => "invalid fail-open duration"
  | .invalidRules message => "invalid rules: " ++ message
  | .tooFast => "action rejected: too soon after the previous change"
  | .conflict => "no change or concurrent update"
  | .notFound => "event not found"
  | .invalidStartTime => "invalid start time"
  | .startTimeInPast => "start time must be in the future"
  | .unknownTimezone => "unknown timezone"
  | .notOpened => "the event has not been opened; use Open now or a scheduled start"

/-- The response to an action: back to the dashboard, or the reason it failed. -/
def finish : Except ApplyError Unit → Response
  | .ok () => seeOther "/admin" []
  | .error (.action .tooFast) =>
      refusal 429 "Too soon after the previous change. Wait a moment and retry."
  | .error (.action error) => refusal 400 (actionMessage error)
  | .error (.store .conflict) =>
      refusal 409
        "State changed underneath you (or there is no change to make). Reload and retry."
  | .error (.store (.backend _)) => serverError

/-! ## Authentication -/

/-- The operator of a request, if it has a session. A store failure is no session. -/
def authed (desk : Desk) (cookies : Option String) (now : ArrivalTime) :
    Program ConsoleStores (Option AdminSession) :=
  match desk.sessionIdFrom cookies with
  | none => return none
  | some id => do
      match ← loadSession id now with
      | .error _ => return none
      | .ok session => return session

/-- What a login draws: the verifier, the state and the nonce. -/
structure LoginDraw where
  pkceVerifier : String
  csrf : String
  nonce : String

/-- Start a login. -/
def login (desk : Desk) (draw : LoginDraw) (now : ArrivalTime) : Program ConsoleStores Response := do
  match ← putPending draw.csrf ⟨draw.pkceVerifier, draw.nonce⟩ now with
  | .error _ => return serverError
  | .ok () =>
      return seeOther
        (desk.oidc.authorizeUrl (desk.oidc.challenge draw.pkceVerifier) draw.csrf draw.nonce)
        [⟨stateCookie, draw.csrf, 600⟩]

/-- The email an id token is checked for: none is the empty one. -/
def Claims.address (claims : Claims) : String := claims.email.getD ""

/-- Create the session of a verified id token and hand out its cookie. -/
def establish (desk : Desk) (claims : Claims) (random : Option (Fin 10 → UInt8))
    (now : ArrivalTime) : Program ConsoleStores Response :=
  if toAsciiLowercase claims.address ∉ desk.allowedEmails then
    return refusal 403 "not authorized for admin access"
  else do
    match ← createSession ⟨claims.subject, claims.address⟩ now random with
    | .error _ => return serverError
    | .ok id => return seeOther "/admin" [⟨sessionCookie, id, 28800⟩, ⟨stateCookie, "", 0⟩]

/-- Exchange the code of a consumed login and verify the id token. -/
def redeemCode (desk : Desk) (pending : PendingLogin) (code : String)
    (random : Option (Fin 10 → UInt8)) (now : ArrivalTime) : Program ConsoleStores Response :=
  match desk.oidc.exchangeCode code with
  | .error error => return refusal 400 ("code exchange: " ++ error)
  | .ok () => do
      match ← Program.ask (I := ConsoleStores) (.tokenRequest code pending.pkceVerifier) with
      | .error error => return refusal 502 ("token request: " ++ error)
      | .ok none => return refusal 502 "no id_token in response"
      | .ok (some idToken) =>
          match desk.oidc.claims idToken pending.nonce with
          | .error error => return refusal 502 ("id_token: " ++ error)
          | .ok claims => establish desk claims random now

/-- The way back from the provider. -/
def callback (desk : Desk) (cookies : Option String) (code state : String)
    (random : Option (Fin 10 → UInt8)) (now : ArrivalTime) : Program ConsoleStores Response :=
  if desk.cookieValue cookies stateCookie ≠ some state then
    return refusal 400 "login state mismatch"
  else do
    match ← takePending state now with
    | .error _ => return refusal 400 "invalid or expired login state"
    | .ok none => return refusal 400 "invalid or expired login state"
    | .ok (some pending) => redeemCode desk pending code random now

/-- Clear the session and its cookie. -/
def logout (desk : Desk) (cookies : Option String) : Program ConsoleStores Response :=
  match desk.sessionIdFrom cookies with
  | none => return seeOther "/admin/login" [⟨sessionCookie, "", 0⟩]
  | some id => do
      let _ ← deleteSession id
      return seeOther "/admin/login" [⟨sessionCookie, "", 0⟩]

/-! ## Actions -/

/-- The form of an action. -/
inductive ActionForm where
  | phase (phase : String)
  | rate (rate : String)
  | message (message : String)
  | startTime (startsAt timezone : String)
  | openNow (seed : Seed) (order : ShardOrder) (reply : InvokeReply)
  | forceMaintenance
  | pause
  | resume
  | failOpen (minutes : String)
  | recover
  | ipBinding (binding : String)
  | rules (rules : String)

/-- What an action does, as which operator and when. -/
abbrev Apply := String → ArrivalTime → Program OperatorStores (Except ApplyError Unit)

/-- The action of a form, or the refusal of a form that does not say one. -/
def Desk.apply (desk : Desk) : ActionForm → Except Response Apply
  | .phase phase => .ok fun actor now => do
      return (← (applyPhase phase actor now).lift inTables).map fun _ => ()
  | .rate rate => .ok fun actor now => do
      return (← (applyRate rate actor now).lift inTables).map fun _ => ()
  | .message message => .ok fun actor now => (applyMessage message actor now).lift inTables
  | .startTime startsAt timezone => .ok fun actor now =>
      (Schedule.applyStartTime desk.operators.scheduler startsAt timezone actor now).lift inSchedule
  | .openNow seed order reply => .ok fun actor now => do
      return (← (applyOpenNow seed order reply actor now).lift inTables).map fun _ => ()
  | .forceMaintenance => .ok fun actor now => (applyForceMaintenance actor now).lift inTables
  | .pause => .ok fun actor now => (applyPause actor now).lift inTables
  | .resume => .ok fun actor now => (applyResume actor now).lift inTables
  | .failOpen minutes => .ok fun actor now =>
      (Edge.applyFailOpen desk.operators.edge minutes actor now).lift inEdge
  | .recover => .ok fun actor now => (Edge.applyRecover desk.operators.edge actor now).lift inEdge
  | .ipBinding binding =>
      if binding = "on" then .ok fun actor now =>
        (Edge.applyIpBinding desk.operators.edge true actor now).lift inEdge
      else if binding = "off" then .ok fun actor now =>
        (Edge.applyIpBinding desk.operators.edge false actor now).lift inEdge
      else .error (refusal 400 "binding must be on or off")
  | .rules text =>
      match Edge.parseRules desk.debug text with
      | .error error => .error (refusal 400 error)
      | .ok rules => .ok fun actor now =>
          (Edge.applySetRules desk.operators.edge rules actor now).lift inEdge

/-- Run an action as the operator of its session. -/
def action (desk : Desk) (cookies : Option String) (form : ActionForm) (now : ArrivalTime) :
    Program ConsoleStores Response := do
  match ← authed desk cookies now with
  | none => return seeOther "/admin/login" []
  | some session =>
      match desk.apply form with
      | .error response => return response
      | .ok apply => return finish (← (apply session.email now).lift inOperators)

/-! ## The room -/

/-- One request of the console. -/
inductive ConsoleJob where
  | login (draw : LoginDraw) (now : ArrivalTime)
  | callback (cookies : Option String) (code state : String) (random : Option (Fin 10 → UInt8))
      (now : ArrivalTime)
  | logout (cookies : Option String)
  | action (cookies : Option String) (form : ActionForm) (now : ArrivalTime)

/-- The program of a request. -/
def ConsoleJob.program (desk : Desk) : ConsoleJob → Program ConsoleStores Response
  | .login draw now => Console.login desk draw now
  | .callback cookies code state random now => Console.callback desk cookies code state random now
  | .logout cookies => Console.logout desk cookies
  | .action cookies form now => Console.action desk cookies form now

/-- The requests of a console. -/
def console (desk : Desk) : System ConsoleStores ConsoleState ConsoleJob Response ConsoleChoice where
  program := ConsoleJob.program desk
  respond := respondConsole

/-- A configuration of the console. -/
abbrev ConsoleRoom := Config ConsoleStores ConsoleState ConsoleJob Response

/-- A logged request. -/
abbrev ConsoleEntry := Entry ConsoleStores ConsoleState ConsoleJob

/-- A run of the console. -/
abbrev ConsoleRun (desk : Desk) (origin : ConsoleState) (c : ConsoleRoom) : Prop :=
  (console desk).Reaches .free (.initial origin) c

end WaitingRoom.Console
