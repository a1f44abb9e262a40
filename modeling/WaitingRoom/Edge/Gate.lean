import WaitingRoom.Edge.Script
import WaitingRoom.Text.Rewriting

/-!
# The admission gate

The script that runs in front of the protected origin. A request that no rule covers passes, and so
does one inside an epoch window; any other passes with a session that opens the gate, and is refused
without one (`Gate.attempt`). What the decision throws lets the request pass, marked (`Gate.handler`).
-/

set_option autoImplicit false

namespace WaitingRoom.Edge

open Text

/-- The gate as it is deployed. -/
structure Gate where
  eventId : String
  sessionCookie : String
  waitingPath : String
  runtime : Runtime

/-- The document as the script reads it. -/
structure Document where
  v : JsNumber
  s : JsNumber
  f : JsNumber
  /-- The rules, as arrays of strings. -/
  r : List (List Units)
  b : Bool

/-- The two keys of the edge's store, unless a read throws. -/
structure Kvs where
  config : Except JsError Document
  secret : Except JsError Units

/-- A request of a viewer. -/
structure Request where
  uri : Units
  headers : Fields
  cookies : Fields
  querystring : Fields

/-- An event: a request, and the viewer's address. -/
structure Event where
  request : Request
  ip : Units

/-- An answer of the gate's own. -/
structure Response where
  statusCode : ℕ
  statusDescription : String
  headers : Fields
  body : Option Units

/-- A request goes on, or is answered here. -/
inductive Outcome where
  | origin (request : Request)
  | respond (response : Response)

/-- What the gate reads off a credential. -/
structure Claims where
  eventId : Units
  expiresAt : JsNumber
  ip : JsValue

/-- The wire form of a rule, as the script sees it. -/
def ProtectionRule.wire (rule : ProtectionRule) : List Units :=
  match rule.toJson with
  | .array items => items.filterMap fun item => item.asString.map utf16
  | _ => []

namespace Gate

variable (gate : Gate)

/-- The protected behaviour forwards every header, so a visitor can send these. -/
def stripSpoofableHeaders (request : Request) : Request :=
  { request with
    headers := deleteField (deleteField request.headers "x-wr-gate") "x-wr-gate-failed" }

/-! ## Credentials -/

/-- Both digests are keyed once more and compared; read as equality. -/
def macEquals (a b : Units) : Bool := decide (a = b)

/-- A key derived from the deployment's secret. -/
def derive (secret : Units) (label : String) : List UInt8 :=
  gate.runtime.hmac (bytesOf secret) (bytesOf (utf16 label))

/-- A keyed digest as text. -/
def digest (key : List UInt8) (message : Units) : Units :=
  (base64url (gate.runtime.hmac key (bytesOf message))).flatMap encodeUtf16

def isDigit (unit : UInt16) : Bool := 48 ≤ unit && unit ≤ 57

/-- Four groups of one to three digits. -/
def isDottedQuad (ip : Units) : Bool :=
  (ip.splitOn 46).length == 4 &&
    (ip.splitOn 46).all fun part => 1 ≤ part.length && part.length ≤ 3 && part.all isDigit

/-- Split at every `::`. -/
def splitColons : Units → List Units
  | 58 :: 58 :: rest => [] :: splitColons rest
  | unit :: rest =>
      match splitColons rest with
      | part :: parts => (unit :: part) :: parts
      | [] => [[unit]]
  | [] => [[]]

/-- The value of a hex digit. -/
def hexVal (c : UInt16) : Option UInt16 :=
  if 48 ≤ c ∧ c ≤ 57 then some (c - 48)
  else if 65 ≤ c ∧ c ≤ 70 then some (c - 55)
  else if 97 ≤ c ∧ c ≤ 102 then some (c - 87)
  else none

/-- `parseInt(text, 16)`: the number of the hex digits a group of an address starts with. -/
def parseHex (text : Units) : Option ℕ :=
  match (text.takeWhile fun unit => (hexVal unit).isSome).filterMap hexVal with
  | [] => none
  | digits => some (digits.foldl (fun value digit => value * 16 + digit.toNat) 0)

/-- `parseInt(group, 16).toString(16)`; a group that is not there is not a number. -/
def normalizeGroup (group : Option Units) : Units :=
  match group.bind parseHex with
  | some value => utf16 (String.ofList (Nat.toDigits 16 value))
  | none => utf16 "NaN"

/-- The first four groups of an IPv6 address. -/
def ipGroups (ip : Units) : List Units :=
  let p := splitColons ip
  let groups (part : Option Units) : List Units :=
    match part with
    | none | some [] => []
    | some part => part.splitOn 58
  let a := groups p[0]?
  let b := groups p[1]?
  let zeros := if 1 < p.length then List.replicate (8 - (a.length + b.length)) (utf16 "0") else []
  let first := (a ++ zeros ++ b).take 4
  (List.range 4).map fun i => normalizeGroup first[i]?

/-- The keyed tag of the viewer's IPv4 address, or IPv6 /64. -/
def ipTag (secret ip : Units) : JsValue :=
  let tag (n : Units) : JsValue := .string ((gate.digest (gate.derive secret "vwr/ip/v1") n).take 22)
  if isDottedQuad ip then tag ip
  else if indexOf (utf16 ":") ip = none then .null
  else tag (List.intercalate (utf16 ":") (ipGroups ip))

/-- `/^[A-Za-z0-9_-]+$/`. -/
def isBase64urlText (text : Units) : Bool :=
  decide (text ≠ []) && text.all fun unit => unit.toNat < 0x80 && isBase64url (Char.ofNat unit.toNat)

/-- Parse a segment; what does not parse is `null`. -/
def decodeJson (segment : Units) : JsValue :=
  (gate.runtime.jsonParse
    ((fromUtf8Lossy (gate.runtime.fromBase64url segment)).flatMap encodeUtf16)).getD .null

/-- Verify a compact signature over `header.payload`. -/
def verify (credential secret : Units) : Option Claims :=
  match credential.splitOn 46 with
  | [first, second, third] =>
      if ¬ (isBase64urlText second && isBase64urlText third) then none
      else
        let header := gate.decodeJson first
        if ¬ header.truthy ∨ ¬ (header.member "alg").strictEquals (.string (utf16 "HS256")) then none
        else
          let mac := gate.digest (gate.derive secret "vwr/jws/session/v1") (first ++ [46] ++ second)
          if ¬ macEquals mac third then none
          else
            let claims := gate.decodeJson second
            if ¬ claims.truthy then none
            else
              match claims.member "aud", claims.member "exp" with
              | .string aud, .number exp => some ⟨aud, exp, claims.member "cip"⟩
              | _, _ => none
  | _ => none

/-! ## Rules -/

/-- Decode `%XX` escapes one byte at a time; a `%` that starts none stays. -/
def percentDecode : Units → Units
  | 37 :: first :: second :: rest =>
      match hexVal first, hexVal second with
      | some h, some l => (h * 16 + l) :: percentDecode rest
      | _, _ => 37 :: percentDecode (first :: second :: rest)
  | unit :: rest => unit :: percentDecode rest
  | [] => []

/-- Collapse `//`, drop `.` segments, until stable. -/
def normalizedPath (uri : Units) : Units :=
  let p := percentDecode uri
  let stable := untilStable (fun p => contract 47 46 (squeeze 47 p)) p.length p
  gate.runtime.toLowerCase (replaceSuffix [47, 46] [47] stable)

/-- An element of a rule whose text an operation reads. -/
def item (rule : List Units) (index : ℕ) : Except JsError Units :=
  match rule[index]? with
  | some text => .ok text
  | none => .error .typeError

/-- An element of a rule as the key of a property, or a needle. -/
def key (rule : List Units) (index : ℕ) : Units := rule[index]?.getD (utf16 "undefined")

/-- Whether a rule matches a request. -/
def «matches» (rule : List Units) (request : Request) : Except JsError Bool := do
  if rule[0]? = some (utf16 "p") then
    let path ← item rule 1
    return decide (indexOf (gate.runtime.toLowerCase path) (gate.normalizedPath request.uri) = some 0)
  else if rule[0]? = some (utf16 "h") then
    let name ← item rule 1
    match (ownProperty request.headers (gate.runtime.toLowerCase name)).bind Field.value with
    | none => return false
    | some actual =>
        let value ← item rule 2
        return decide (gate.runtime.toLowerCase actual = gate.runtime.toLowerCase value)
  else if rule[0]? = some (utf16 "c") then
    return (ownProperty request.cookies (key rule 1)).isSome
  else if rule[0]? = some (utf16 "u") then
    match (ownProperty request.headers (utf16 "user-agent")).bind Field.value with
    | none => return false
    | some actual => return (indexOf (key rule 1) actual).isSome
  else return false

/-- Whether a rule protects a request: the first that matches ends the loop. -/
def protectedByRule (request : Request) : List (List Units) → Except JsError Bool
  | [] => return false
  | rule :: rules => do
      if ← gate.matches rule request then return true else protectedByRule request rules

/-! ## Refusals -/

/-- The query of a redirect. -/
def queryString (querystring : Fields) : Except JsError Units := do
  let parts ← (querystring.filterMap fun (name, field) => field.value.map (name, ·)).mapM
    fun (name, value) => do
      return (← encodeURIComponent name) ++ utf16 "=" ++ (← encodeURIComponent value)
  return if parts = [] then [] else utf16 "?" ++ List.intercalate (utf16 "&") parts

/-- A navigation accepts a page. -/
def wantsHtml (request : Request) : Except JsError Bool := do
  let mode := property request.headers (utf16 "sec-fetch-mode")
  if mode.any fun mode => mode.value ≠ some (utf16 "navigate") then return false
  match property request.headers (utf16 "accept") with
  | none => return true
  | some accept =>
      match accept.value with
      | none => throw .typeError
      | some value => return (indexOf (utf16 "text/html") value).isSome

/-- A response header. -/
def respondWith (name : String) (value : Units) : Units × Field := (utf16 name, ⟨some value⟩)

/-- A navigation is redirected, anything else is answered in JSON; both carry a reason. -/
def refuse (request : Request) (reason : String) : Except JsError Outcome := do
  if ← wantsHtml request then
    let destination := request.uri ++ (← queryString request.querystring)
    let next := utf16 "&next=" ++ (← encodeURIComponent destination)
    return .respond
      { statusCode := 302
        statusDescription := "Found"
        headers := [
          respondWith "location" (utf16 (gate.waitingPath ++ "?r=" ++ reason) ++ next),
          respondWith "cache-control" (utf16 "no-store"),
          respondWith "x-wr-reason" (utf16 reason)]
        body := none }
  else
    return .respond
      { statusCode := 403
        statusDescription := "Forbidden"
        headers := [
          respondWith "content-type" (utf16 "application/json"),
          respondWith "cache-control" (utf16 "no-store"),
          respondWith "x-wr-reason" (utf16 reason),
          respondWith "x-wr-waiting-room" (utf16 gate.waitingPath),
          respondWith "access-control-expose-headers" (utf16 "x-wr-reason,x-wr-waiting-room")]
        body := some (utf16 ("\x7b\"queued\":true,\"reason\":\"" ++ reason ++
          "\",\"waitingRoom\":\"" ++ gate.waitingPath ++ "\"\x7d")) }

/-! ## The decision -/

/-- `now < epoch`, for an epoch that is set. -/
def windowOpen (epoch : JsNumber) (now : ℕ) : Bool :=
  (JsValue.number epoch).truthy && !epoch.le (.finite now)

/-- A request goes on with the gate's own mark. -/
def mark (request : Request) (name value : String) : Outcome :=
  .origin { request with headers := setField request.headers name value }

/-- What the gate does with a covered request outside both windows, unless it throws. -/
def checkSession (kvs : Kvs) (bound : Bool) (now : ℕ) (ip : Units) (request : Request) :
    Except JsError Outcome :=
  match property request.cookies (utf16 gate.sessionCookie) with
  | none => gate.refuse request "none"
  | some cookie => do
      let secret ← kvs.secret
      match cookie.value with
      | none => throw .typeError
      | some credential =>
          match gate.verify credential secret with
          | none => gate.refuse request "signature"
          | some session =>
              if session.eventId ≠ utf16 gate.eventId then gate.refuse request "event"
              else if session.expiresAt.le (.finite now) then gate.refuse request "expired"
              else if bound && !session.ip.strictEquals (gate.ipTag secret ip) then
                gate.refuse request "ip"
              else return .origin request

/-- What the gate does with a request, unless it throws. -/
def attempt (kvs : Kvs) (now : ℕ) (ip : Units) (request : Request) : Except JsError Outcome := do
  let cfg ← kvs.config
  if cfg.v ≠ .finite 1 then throw (.error "unrecognized gate config version")
  if ¬ (← gate.protectedByRule request cfg.r) then return .origin request
  if windowOpen cfg.s now then return mark request "x-wr-gate" "pending"
  if windowOpen cfg.f now then return mark request "x-wr-gate" "failopen"
  gate.checkSession kvs cfg.b now ip request

/-- The handler: what the decision throws lets the request pass, marked. -/
def handler (kvs : Kvs) (now : ℕ) (event : Event) : Outcome :=
  let request := stripSpoofableHeaders event.request
  match gate.attempt kvs now event.ip request with
  | .ok outcome => outcome
  | .error _ => mark request "x-wr-gate-failed" "true"

end Gate

end WaitingRoom.Edge
