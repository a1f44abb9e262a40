import WaitingRoom.Common.Arithmetic
import WaitingRoom.Edge.Rules

/-!
# The gate's configuration

One document in the edge's key-value store says what the gate covers and when. The admin console
encodes it under the ceilings of that store (`encodeGateConfig`) and reads back what it encoded
(`GateConfig.ofJson_toJson`).
-/

set_option autoImplicit false

namespace WaitingRoom.Edge

/-- The gate's config document. -/
structure GateConfig where
  v : ℕ
  enforceFrom : ℕ
  failOpenUntil : ℕ
  rules : List ProtectionRule
  bindIp : Bool
  deriving DecidableEq

/-- The numbers of a document fit their fields. -/
structure GateConfig.Fits (config : GateConfig) : Prop where
  v : config.v < 256
  enforceFrom : config.enforceFrom < u64Bound
  failOpenUntil : config.failOpenUntil < u64Bound

def maxRules : ℕ := 35

def maxConfigBytes : ℕ := 950

/-- Why a config could not be encoded for the edge. -/
inductive GateConfigError where
  | tooManyRules (actual max : ℕ)
  | tooLarge (actual max : ℕ)
  | field (error : RuleFieldError)
  deriving DecidableEq, Repr

/-- The text of an encoding error. -/
def GateConfigError.message : GateConfigError → String
  | .tooManyRules actual max => s!"ruleset has {actual} rules, over the {max} limit"
  | .tooLarge actual max =>
      s!"encoded config is {actual} bytes, over the {max}-byte KeyValueStore value limit"
  | .field error => error.message

namespace GateConfig

/-- The document's fields. The last one is omitted while it is off. -/
def toJson (config : GateConfig) : Json :=
  .object ([("v", .nat config.v), ("s", .nat config.enforceFrom), ("f", .nat config.failOpenUntil),
    ("r", .array (config.rules.map ProtectionRule.toJson))] ++
      if config.bindIp then [("b", .bool true)] else [])

/-- The member of a required field; one that is there twice is an error. -/
def required (members : List (String × Json)) (key : String) : Option Json :=
  match members.filter fun member => member.1 = key with
  | [member] => some member.2
  | _ => none

/-- The member of a field that reads as off when it is missing. -/
def bindIpOf (members : List (String × Json)) : Option Bool :=
  match members.filter fun member => member.1 = "b" with
  | [] => some false
  | [member] => member.2.asBool
  | _ => none

/-- Read a document. -/
def ofJson : Json → Option GateConfig
  | .object members => do
      let v ← (← required members "v").asUnsigned 256
      let enforceFrom ← (← required members "s").asUnsigned u64Bound
      let failOpenUntil ← (← required members "f").asUnsigned u64Bound
      let items ← (← required members "r").asArray
      let rules ← items.mapM ProtectionRule.ofJson
      let bindIp ← bindIpOf members
      return ⟨v, enforceFrom, failOpenUntil, rules, bindIp⟩
  | _ => none

theorem mapM_ofJson (rules : List ProtectionRule) :
    (rules.map ProtectionRule.toJson).mapM ProtectionRule.ofJson = some rules := by
  induction rules with
  | nil => rfl
  | cons rule rules ih =>
      rw [List.map_cons, List.mapM_cons, ProtectionRule.ofJson_toJson, ih]
      rfl

/-- **What is encoded is read back.** -/
theorem ofJson_toJson {config : GateConfig} (fits : config.Fits) :
    ofJson config.toJson = some config := by
  obtain ⟨v, enforceFrom, failOpenUntil, rules, bindIp⟩ := config
  have first := Json.asUnsigned_nat fits.v
  have second := Json.asUnsigned_nat fits.enforceFrom
  have third := Json.asUnsigned_nat fits.failOpenUntil
  have items := mapM_ofJson rules
  cases bindIp <;>
    simp [ofJson, toJson, required, bindIpOf, first, second, third, items, Json.asArray, Json.asBool]

/-- No other config reads as the same document. -/
theorem ofJson_toJson_unique {config other : GateConfig} (read : ofJson config.toJson = some other) :
    other = config := by
  have fits : config.Fits := by
    refine ⟨?_, ?_, ?_⟩
    all_goals
      by_contra outside
      have none := Json.asUnsigned_nat_eq_none outside
      cases on : config.bindIp <;> simp [ofJson, toJson, required, none, on] at read
  rw [ofJson_toJson fits] at read
  exact (Option.some.inj read).symm

/-- What is read fits. -/
theorem fits_of_ofJson {json : Json} {config : GateConfig} (read : ofJson json = some config) :
    config.Fits := by
  cases json with
  | object members =>
      simp only [ofJson, Option.bind_eq_bind, Option.bind_eq_some_iff] at read
      obtain ⟨_, -, v, first, _, -, enforceFrom, second, _, -, failOpenUntil, third, _, -, _, -, rules,
        -, bindIp, -, same⟩ := read
      obtain rfl := Option.some.inj same
      exact ⟨Json.asUnsigned_lt first, Json.asUnsigned_lt second, Json.asUnsigned_lt third⟩
  | _ => cases read

end GateConfig

/-- The JSON printer and parser. -/
structure JsonText where
  print : Json → String
  parse : String → Option Json

/-- The parser reads what the printer wrote, for documents the store takes. -/
def JsonText.RoundTrips (text : JsonText) : Prop :=
  ∀ config : GateConfig, (utf8 (text.print config.toJson)).length ≤ maxConfigBytes →
    text.parse (text.print config.toJson) = some config.toJson

/-- Encode a config to the document the gate reads. -/
def encodeGateConfig (text : JsonText) (config : GateConfig) : Except GateConfigError String :=
  if maxRules < config.rules.length then .error (.tooManyRules config.rules.length maxRules)
  else
    match validateRuleFields config.rules with
    | .error error => .error (.field error)
    | .ok () =>
        let json := text.print config.toJson
        if maxConfigBytes < (utf8 json).length then .error (.tooLarge (utf8 json).length maxConfigBytes)
        else .ok json

/-- Decode a document. -/
def decodeGateConfig (text : JsonText) (value : String) : Option GateConfig :=
  (text.parse value).bind GateConfig.ofJson

/-- The numbers of a decoded document fit. -/
theorem decode_fits {text : JsonText} {value : String} {config : GateConfig}
    (decoded : decodeGateConfig text value = some config) : config.Fits := by
  obtain ⟨json, -, read⟩ := Option.bind_eq_some_iff.mp decoded
  exact GateConfig.fits_of_ofJson read

/-- **A document that was encoded decodes to its config.** -/
theorem decode_of_encode {text : JsonText} (roundTrips : text.RoundTrips) {config : GateConfig}
    (fits : config.Fits) {value : String} (encoded : encodeGateConfig text config = .ok value) :
    decodeGateConfig text value = some config := by
  rw [encodeGateConfig] at encoded
  split_ifs at encoded
  split at encoded
  · cases encoded
  · simp only at encoded
    split_ifs at encoded with large
    obtain rfl := Except.ok.inj encoded
    rw [decodeGateConfig, roundTrips config (not_lt.mp large), Option.bind_some,
      GateConfig.ofJson_toJson fits]

end WaitingRoom.Edge
