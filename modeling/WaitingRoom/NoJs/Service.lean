import WaitingRoom.Concurrency.Lift
import WaitingRoom.Lambda.NoJs
import WaitingRoom.NoJs.Identity

/-!
# Entering and waiting without a script

`POST /v1/enter` draws an identity, puts its join on the queue and keeps it in a cookie, once: a visitor
that holds an identity is sent on. `GET /v1/wait` runs the admission of that identity and shows a page
that refreshes itself, or sets the session and sends the visitor to where the first request was headed,
however many pages were in between (`next_carried`).
-/

set_option autoImplicit false

namespace WaitingRoom.NoJs

open Dynamo Concurrency Text Edge

/-! ## Pages -/

/-- The page a waiting visitor sees. -/
inductive WaitPage where
  | notInLine
  | joining
  | queued (position ahead : ℕ)
  | holding
  | lost
  | unavailable
  deriving DecidableEq, Repr

/-- Seconds until the page reloads itself. -/
def WaitPage.refreshSecs : WaitPage → Option ℕ
  | .notInLine | .lost => none
  | .joining => some 5
  | .queued _ ahead => some (if ahead < 100 then 5 else 20)
  | .holding => some 30
  | .unavailable => some 15

/-- What `GET /v1/wait` answers with. -/
inductive WaitOutcome where
  | admits (credential : String)
  | page (shown : WaitPage)
  deriving DecidableEq, Repr

/-- What the visitor sees of an admission attempt. -/
def outcome : Admission → WaitOutcome
  | .admitted _ _ credential => .admits credential
  | .refused (.stillQueued position serving) => .page (.queued position (saturatingSub position serving))
  | .refused .notRegistered => .page .joining
  | .refused .notAdmitting | .refused .notOpen => .page .holding
  | .refused .notHolder => .page .lost
  | .refused .corrupt => .page .unavailable
  | .eventNotFound | .signFailed => .page .unavailable

/-- A number with a comma between each three of its digits. -/
def grouped (n : ℕ) : String :=
  let digits := n.repr.toList
  String.ofList (digits.zipIdx.flatMap fun (c, i) =>
    if 0 < i ∧ (digits.length - i) % 3 = 0 then [',', c] else [c])

/-- The server-rendered page. -/
structure WaitHtml where
  title : String
  sub : String
  queued : Option (String × String)
  showForm : Bool
  refresh : Option ℕ
  /-- Where an admitted visitor goes, escaped for the form's address. -/
  nextEncoded : String
  deriving DecidableEq

/-- The title of a page and the line below it. -/
def WaitPage.texts : WaitPage → String × String
  | .notInLine => ("You are not in line yet",
      "Join below. This works without JavaScript; the page refreshes itself while you wait.")
  | .joining => ("Getting your place in line…", "Just a moment.")
  | .queued _ 0 => ("You're next", "Letting you through any moment.")
  | .queued _ _ => ("You're in line",
      "Keep this page open. You'll be let through automatically.")
  | .holding => ("You're in line",
      "The line isn't moving yet. You keep your place; this page updates on its own.")
  | .lost => ("We couldn't confirm this place is yours", "Join again to take a new place in line.")
  | .unavailable => ("The waiting room is having trouble",
      "You keep your place. This page will try again on its own.")

/-- The page as it is rendered. -/
def WaitHtml.of (page : WaitPage) (next : String) : WaitHtml where
  title := page.texts.1
  sub := page.texts.2
  queued :=
    match page with
    | .queued position ahead => some (grouped position, grouped ahead)
    | _ => none
  showForm := page = .notInLine ∨ page = .lost
  refresh := page.refreshSecs
  nextEncoded := encodeComponent next

/-! ## Requests and responses -/

/-- The method of a request. -/
inductive Method where
  | get
  | post
  | other
  deriving DecidableEq, Repr

/-- A request, and the values of the headers that are read of it. -/
structure Request where
  method : Method
  path : String
  query : Option String
  referer : Option String
  cookie : Option String
  viewerAddress : Option String

/-- What is sent back. -/
inductive Body where
  | empty
  | html (page : WaitHtml)
  | text (text : String)
  deriving DecidableEq

/-- A response; none is ever stored by a cache. -/
structure Response where
  status : ℕ
  location : Option String
  setCookie : Option SetCookie
  body : Body
  deriving DecidableEq

/-- A redirect. -/
def redirect (location : String) (setCookie : Option SetCookie) : Response :=
  ⟨303, some location, setCookie, .empty⟩

/-- A page. -/
def page (status : ℕ) (shown : WaitPage) (next : String) (setCookie : Option SetCookie) : Response :=
  ⟨status, none, setCookie, .html (.of shown next)⟩

/-- The path of a form post. -/
def enterPath : String := "/v1/enter"

/-- The path of the page. -/
def waitPath : String := "/v1/wait"

/-- Where the wait page of a visitor is. -/
def waitLocation (next : String) : String := waitPath ++ "?next=" ++ encodeComponent next

/-- What follows the first `?` of an address. -/
def queryOf (address : String) : Option String :=
  (splitOnce (· == '?') address.toList).map fun parts => String.ofList parts.2

/-- What is read of a header: its text, if it has one. -/
def header (value : Option String) : Option String := value.bind headerText

/-- The `next` of the page that a form was posted from. -/
def nextFromReferer (referer : Option String) : String :=
  safeNext ((referer.bind queryOf).bind nextParam)

/-- The `next` of a form post: the wait page's own form carries it, the waiting page's cannot. -/
def enterNext (request : Request) : String :=
  match request.query.bind nextParam with
  | some raw => safeNext (some raw)
  | none => nextFromReferer (header request.referer)

/-- The `next` of the wait page. -/
def waitNext (request : Request) : String := safeNext (request.query.bind nextParam)

/-- The identity of a request. -/
def Request.identity (request : Request) : Option Identity :=
  (header request.cookie).bind identityFromCookies

/-- The address of a viewer, without its port. -/
def viewerIp (header : String) : Option String :=
  match splitOnce (· == ':') (trim isWhitespace header.toList).reverse with
  | none => none
  | some (port, ip) =>
      if ip ≠ [] ∧ port ≠ [] ∧ port.all Char.isDigit then some (String.ofList ip.reverse) else none

/-! ## The service -/

/-- The join could not be enqueued. -/
structure QueueError where
  message : String
  deriving DecidableEq, Repr

/-- A call of the service: to the tables of the room, or to the join queue. -/
inductive ServiceCall where
  | tables (call : Call)
  | send (body : String)

/-- The tables and the queue. -/
abbrev Stores : Interface where
  Call := ServiceCall
  Answer
    | .tables call => Tables.Answer call
    | .send _ => Except QueueError Unit

/-- The tables among the stores. -/
def tablesOf : Embedding Tables Stores where
  call := .tables
  answer _ answer := answer

/-- What the service is deployed with; `toJson` writes a join as an object of three texts. -/
structure Service where
  hmac : Hmac
  digestOf : DigestOf
  minting : Minting
  sessionCookieName : String
  toJson : RawJoin → String

/-- The body of a join. -/
def Service.joinBody (service : Service) (identity : Identity) : String :=
  service.toJson (identity.rawJoin service.digestOf service.minting.eventId)

/-- The cookie that carries a session. -/
def Service.sessionSetCookie (service : Service) (credential : String) : SetCookie :=
  ⟨service.sessionCookieName, credential, "/", service.minting.sessionTtlSecs⟩

/-- Put the visitor's join on the queue. -/
def enter (service : Service) (identity : Identity) : Program Stores (Except QueueError Unit) :=
  Program.ask (I := Stores) (.send (service.joinBody identity))

/-- Join, once. -/
def handleEnter (service : Service) (request : Request) (nowMs : ℕ) (draw : Option Draw) :
    Program Stores Response :=
  let next := enterNext request
  if request.identity.isSome then return redirect (waitLocation next) none
  else
    match Identity.mint nowMs draw with
    | .error _ => return page 503 .unavailable next none
    | .ok identity => do
        match ← enter service identity with
        -- without a cookie the form is still the visitor's to press again
        | .error _ => return page 503 .notInLine next none
        | .ok () => return redirect (waitLocation next) (some identity.setCookie)

/-- What the wait page answers after the admission. -/
def answerWait (service : Service) (next : String) : Except StoreError Admission → Response
  | .error _ => page 503 .unavailable next none
  | .ok admission =>
      match outcome admission with
      | .admits credential => redirect next (some (service.sessionSetCookie credential))
      | .page .lost => page 200 .lost next (some clearIdentityCookie)
      | .page shown => page 200 shown next none

/-- Run the admission of the visitor's identity. -/
def handleWait (service : Service) (request : Request) (now : ℕ) (shard : Option Shard) :
    Program Stores Response :=
  let next := waitNext request
  match request.identity with
  | none => return page 200 .notInLine next none
  | some identity => do
      let admission ← (admitVisitor service.hmac service.digestOf service.minting identity.requestId
        identity.secret ((header request.viewerAddress).bind viewerIp) now shard).lift tablesOf
      return answerWait service next admission

/-- What a request draws and when it comes. -/
structure Arrival where
  nowMs : ℕ
  draw : Option Draw
  shard : Option Shard

/-- `str::ends_with`. -/
def endsWith (path suffix : String) : Bool := suffix.toList.isSuffixOf path.toList

/-- The path is matched by its end, so that the stage before it does not matter. -/
def handle (service : Service) (request : Request) (arrival : Arrival) : Program Stores Response :=
  if request.method = .post ∧ endsWith request.path enterPath then
    handleEnter service request arrival.nowMs arrival.draw
  else if request.method = .get ∧ endsWith request.path waitPath then
    handleWait service request (arrival.nowMs / 1000) arrival.shard
  else return ⟨404, none, none, .text "not found"⟩

end WaitingRoom.NoJs
