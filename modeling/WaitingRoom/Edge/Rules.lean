import WaitingRoom.Edge.Json
import WaitingRoom.Text.Stable
import WaitingRoom.Text.Utf8
import Mathlib.Data.List.Infix

/-!
# Protection rules

Which requests the gate covers, as the admin console and the authorizer see it. A rule matches a
request by a prefix of its normalized path, a header, the presence of a cookie or a substring of
the user agent. Its wire form is the compact tuple the edge's store holds.
-/

set_option autoImplicit false

namespace WaitingRoom.Edge

open Text

/-- One local protection rule. -/
inductive ProtectionRule where
  | pathPrefix (path : String)
  | header (name value : String)
  | cookie (name : String)
  | userAgent (needle : String)
  deriving DecidableEq

/-- A minimal view over a request. -/
structure RequestView where
  path : String
  /-- The value of a header by case-insensitive name. -/
  header : String → Option String
  /-- The value of a cookie by name. -/
  cookie : String → Option String

/-! ## Paths -/

/-- One hex digit's value. -/
def hexVal (b : UInt8) : Option UInt8 :=
  if 48 ≤ b ∧ b ≤ 57 then some (b - 48)
  else if 65 ≤ b ∧ b ≤ 70 then some (b - 65 + 10)
  else if 97 ≤ b ∧ b ≤ 102 then some (b - 97 + 10)
  else none

/-- Decode `%XX` escapes one byte at a time; a `%` that starts none stays. -/
def percentDecode : List UInt8 → List UInt8
  | 37 :: first :: second :: rest =>
      match hexVal first, hexVal second with
      | some hi, some lo => (hi * 16 + lo) :: percentDecode rest
      | _, _ => 37 :: percentDecode (first :: second :: rest)
  | b :: rest => b :: percentDecode rest
  | [] => []

/-- Collapse every run of `/` to a single `/`. -/
def collapseSlashes (p : List Char) : List Char :=
  p.foldl (fun out c => if c = '/' ∧ out.getLast? = some '/' then out else out ++ [c]) []

/-- `replace("/./", "/")`. -/
def replaceDotSegments : List Char → List Char
  | '/' :: '.' :: '/' :: rest => '/' :: replaceDotSegments rest
  | c :: rest => c :: replaceDotSegments rest
  | [] => []

/-- A trailing `/.` loses its dot. -/
def stripTrailingDot (p : List Char) : List Char :=
  if ['/', '.'] <:+ p then p.take (p.length - 2) ++ ['/'] else p

/-- The bytes of a text. -/
def utf8 (s : String) : List UInt8 := s.toList.flatMap String.utf8EncodeChar

/-- Decode a path, drop what an origin would ignore, and fold its case. -/
def normalizedPath (path : String) : List Char :=
  let decoded := fromUtf8Lossy (percentDecode (utf8 path))
  let stable := untilStable (fun p => replaceDotSegments (collapseSlashes p)) decoded.length decoded
  (stripTrailingDot stable).map Char.toLower

/-! ## Matching -/

/-- Whether a rule matches a request. -/
def ProtectionRule.Matches (req : RequestView) : ProtectionRule → Bool
  | .pathPrefix path => path.toLower.toList.isPrefixOf (normalizedPath req.path)
  | .header name value =>
      (req.header name).any fun actual => decide (actual.toLower = value.toLower)
  | .cookie name => (req.cookie name).isSome
  | .userAgent needle =>
      (req.header "user-agent").any fun ua => decide (needle.toList <:+: ua.toList)

/-- Whether any rule protects a request. -/
def matchesAny (rules : List ProtectionRule) (req : RequestView) : Bool :=
  rules.any fun rule => rule.Matches req

/-! ## Validation -/

def maxPathPrefixBytes : ℕ := 128
def maxHeaderNameBytes : ℕ := 64
def maxHeaderValueBytes : ℕ := 128
def maxCookieNameBytes : ℕ := 64
def maxUserAgentBytes : ℕ := 64

/-- A rule field that failed input validation. -/
inductive RuleFieldError where
  | tooLong (ruleIndex : ℕ) (field : String) (limit actual : ℕ)
  | notAscii (ruleIndex : ℕ) (field : String)
  deriving DecidableEq, Repr

/-- The text of a field error. -/
def RuleFieldError.message : RuleFieldError → String
  | .tooLong ruleIndex field limit actual =>
      s!"rule {ruleIndex}: {field} is {actual} bytes, over the {limit}-byte limit"
  | .notAscii ruleIndex field => s!"rule {ruleIndex}: {field} contains a non-printable-ASCII byte"

/-- Printable ASCII, within the limit. -/
def checkField (ruleIndex : ℕ) (field value : String) (limit : ℕ) : Except RuleFieldError Unit :=
  if ¬ (utf8 value).all fun b => 0x20 ≤ b ∧ b ≤ 0x7E then .error (.notAscii ruleIndex field)
  else if limit < (utf8 value).length then
    .error (.tooLong ruleIndex field limit (utf8 value).length)
  else .ok ()

/-- The fields of one rule, with their limits. -/
def checkRule (ruleIndex : ℕ) : ProtectionRule → Except RuleFieldError Unit
  | .pathPrefix path => checkField ruleIndex "path prefix" path maxPathPrefixBytes
  | .cookie name => checkField ruleIndex "cookie name" name maxCookieNameBytes
  | .userAgent ua => checkField ruleIndex "user agent substring" ua maxUserAgentBytes
  | .header name value => do
      checkField ruleIndex "header name" name maxHeaderNameBytes
      checkField ruleIndex "header value" value maxHeaderValueBytes

/-- Validate every rule from an index on. -/
def checkRulesFrom : ℕ → List ProtectionRule → Except RuleFieldError Unit
  | _, [] => .ok ()
  | index, rule :: rules => do
      checkRule index rule
      checkRulesFrom (index + 1) rules

/-- Validate every rule's fields: the first error, in rule order. -/
def validateRuleFields (rules : List ProtectionRule) : Except RuleFieldError Unit :=
  checkRulesFrom 0 rules

/-! ## The wire form -/

namespace ProtectionRule

/-- `["p",prefix]`, `["c",name]`, `["u",substring]` or `["h",name,value]`. -/
def toJson : ProtectionRule → Json
  | .pathPrefix path => .array [.string "p", .string path]
  | .cookie name => .array [.string "c", .string name]
  | .userAgent needle => .array [.string "u", .string needle]
  | .header name value => .array [.string "h", .string name, .string value]

/-- The rule of a tuple; another arity or an unknown tag is an error. -/
def ofJson : Json → Option ProtectionRule
  | .array [.string tag, .string text] =>
      if tag = "p" then some (.pathPrefix text)
      else if tag = "c" then some (.cookie text)
      else if tag = "u" then some (.userAgent text)
      else none
  | .array [.string tag, .string name, .string value] =>
      if tag = "h" then some (.header name value) else none
  | _ => none

theorem ofJson_toJson (rule : ProtectionRule) : ofJson rule.toJson = some rule := by
  cases rule <;> rfl

end ProtectionRule

end WaitingRoom.Edge
