import WaitingRoom.Common.Arithmetic

/-!
# Identifiers, the event phase and the admission control

The event's phase is its place on the timeline. The operator's stored control says
whether visitors are let through, and `resolve` overrides it while the fail-open epoch
has not passed. A request id is accepted by its shape alone (`isUuidShape`), and the
possession secret and its digest are strings of one fixed shape, so both carry that shape
as a field.
-/

set_option autoImplicit false

namespace WaitingRoom

abbrev RequestId := String

/-- An ASCII hexadecimal digit. -/
def isHexDigit (c : Char) : Bool :=
  c.isDigit || ('a' ≤ c && c ≤ 'f') || ('A' ≤ c && c ≤ 'F')

/-- The canonical `8-4-4-4-12` hex shape. A string of 36 bytes whose bytes are all ASCII
has 36 characters, and a character outside ASCII is no hex digit and no hyphen. -/
def isUuidShape (id : RequestId) : Bool :=
  id.toList.length == 36 &&
    id.toList.zipIdx.all fun (c, i) =>
      if i = 8 ∨ i = 13 ∨ i = 18 ∨ i = 23 then c == '-' else isHexDigit c

/-! ## Phases -/

/-- The event lifecycle phase. -/
inductive Phase where
  | idle
  | preQueue
  | active
  | postEvent
  | maintenance
  deriving DecidableEq, Repr

/-- The stored spelling of a phase. -/
def Phase.asWireStr : Phase → String
  | .idle => "idle"
  | .preQueue => "pre_queue"
  | .active => "active"
  | .postEvent => "post_event"
  | .maintenance => "maintenance"

/-- The phase a stored spelling names. -/
def Phase.fromStr (s : String) : Option Phase :=
  if s = "idle" then some .idle
  else if s = "pre_queue" then some .preQueue
  else if s = "active" then some .active
  else if s = "post_event" then some .postEvent
  else if s = "maintenance" then some .maintenance
  else none

@[simp] theorem Phase.fromStr_asWireStr (phase : Phase) :
    Phase.fromStr phase.asWireStr = some phase := by
  cases phase <;> simp [Phase.fromStr, Phase.asWireStr]

/-- A spelling that names a phase is the one that phase is stored under. -/
theorem Phase.asWireStr_of_fromStr {s : String} {phase : Phase}
    (named : Phase.fromStr s = some phase) : s = phase.asWireStr := by
  simp only [Phase.fromStr] at named
  repeat' split at named
  all_goals first
    | (obtain rfl := Option.some.inj named; assumption)
    | cases named

theorem Phase.asWireStr_injective : Function.Injective Phase.asWireStr := by
  intro left right same
  have read := congrArg Phase.fromStr same
  rwa [Phase.fromStr_asWireStr, Phase.fromStr_asWireStr, Option.some.injEq] at read

/-! ## Admission control -/

/-- What the stored admission control can hold. Fail-open is not storable. -/
inductive StoredControl where
  | open
  | paused
  deriving DecidableEq, Repr

/-- The admission control a consumer acts on. -/
inductive AdmissionControl where
  | open
  | paused
  | failOpen
  deriving DecidableEq, Repr

/-- The stored spelling of a control. -/
def StoredControl.asWireStr : StoredControl → String
  | .open => "open"
  | .paused => "paused"

/-- The control a stored spelling names. -/
def StoredControl.fromStr (s : String) : Option StoredControl :=
  if s = "open" then some .open
  else if s = "paused" then some .paused
  else none

/-- A stored-control transition that is not legal from the current state. -/
structure IllegalControl where
  control : StoredControl
  action : String
  deriving DecidableEq, Repr

/-- Pause admission. Legal only from `open`. -/
def StoredControl.pause : StoredControl → Except IllegalControl StoredControl
  | .open => .ok .paused
  | .paused => .error ⟨.paused, "pause"⟩

/-- Resume admission. Legal only from `paused`. -/
def StoredControl.resume : StoredControl → Except IllegalControl StoredControl
  | .paused => .ok .open
  | .open => .error ⟨.open, "resume"⟩

/-- The control in force at `now`: the fail-open epoch overrides the stored value until it
has passed. -/
def resolve (stored : StoredControl) (failOpenUntil now : ℕ) : AdmissionControl :=
  if now < failOpenUntil then .failOpen
  else
    match stored with
    | .open => .open
    | .paused => .paused

/-! ## The possession secret -/

/-- 32 bytes as unpadded base64url. -/
def isB64url32 (s : String) : Bool :=
  s.toList.length == 43 &&
    s.toList.all fun c =>
      c.isDigit || ('a' ≤ c && c ≤ 'z') || ('A' ≤ c && c ≤ 'Z') || c == '-' || c == '_'

/-- The visitor's proof that a request id is theirs. -/
structure PossessionSecret where
  text : String
  wellFormed : isB64url32 text = true
  deriving DecidableEq

/-- What a join stores in place of the secret. -/
structure SecretDigest where
  text : String
  wellFormed : isB64url32 text = true
  deriving DecidableEq

def PossessionSecret.parse (s : String) : Option PossessionSecret :=
  if wellFormed : isB64url32 s = true then some ⟨s, wellFormed⟩ else none

def SecretDigest.parse (s : String) : Option SecretDigest :=
  if wellFormed : isB64url32 s = true then some ⟨s, wellFormed⟩ else none

end WaitingRoom
