import WaitingRoom.Edge.Store

/-!
# The operator's edge actions

Each action that changes the gate reads its document with the `ETag` it was read under, changes one
field, and puts the whole document under that `ETag`. A put that fails is tried once more against a
fresh read (`edgeReadModifyWrite`). Fail-open writes the edge first and the item second, recover the
other way round, and the other two stamp the item after the edge.
-/

set_option autoImplicit false

namespace WaitingRoom.Edge

open Dynamo Concurrency

/-- What the console links against: the JSON text and the digest of a document. -/
structure Console where
  text : JsonText
  digest : String → String

/-- An edge store failure. -/
structure EdgeStoreError where
  message : String
  deriving DecidableEq, Repr

/-- Send one request. -/
abbrev sendEdge (call : EdgeCall) : Program Stores (Except StoreError (EdgePayload call)) :=
  Program.ask (I := Stores) call

/-! ## The edge's document -/

/-- The store's current `ETag`. -/
def currentEtag : Program Stores (Except EdgeStoreError String) := do
  match ← sendEdge .describe with
  | .error error => return .error ⟨"describe_key_value_store: " ++ error.message⟩
  | .ok etag => return .ok etag

/-- The current document, and the `ETag` it was read under. -/
def readConfig (text : JsonText) : Program Stores (Except EdgeStoreError (GateConfig × String)) := do
  match ← currentEtag with
  | .error error => return .error error
  | .ok etag =>
      match ← sendEdge .getKey with
      | .error error => return .error ⟨"get_key: " ++ error.message⟩
      | .ok value =>
          match decodeGateConfig text value with
          | none => return .error ⟨"decode gate config"⟩
          | some config => return .ok (config, etag)

/-- Put a document under the `ETag` it was read under. -/
def writeConfig (text : JsonText) (etag : String) (config : GateConfig) :
    Program Stores (Except EdgeStoreError Unit) := do
  match encodeGateConfig text config with
  | .error error => return .error ⟨error.message⟩
  | .ok encoded =>
      match ← sendEdge (.putKey etag encoded) with
      | .error error => return .error ⟨"put_key: " ++ error.message⟩
      | .ok () => return .ok ()

/-- A read-modify-write, with one retry against a fresh read. -/
def edgeReadModifyWrite (text : JsonText) (mutate : GateConfig → GateConfig) :
    Program Stores (Except EdgeStoreError GateConfig) := do
  match ← readConfig text with
  | .error error => return .error error
  | .ok (config, etag) =>
      match ← writeConfig text etag (mutate config) with
      | .ok () => return .ok (mutate config)
      | .error _ =>
          match ← readConfig text with
          | .error error => return .error error
          | .ok (config, etag) =>
              match ← writeConfig text etag (mutate config) with
              | .error error => return .error error
              | .ok () => return .ok (mutate config)

/-! ## The item -/

/-- Load the event's item. -/
def loadEvent : Program Stores (Except AdminStoreError (Option Item)) := do
  match ← sendEdge .getItem with
  | .error error => return .error (.backend ("get_item: " ++ error.message))
  | .ok item => return .ok item

/-- Send a guarded update; a failed condition is a conflict. -/
def sendGuardedEdge (update : EventUpdate) (what : String) :
    Program Stores (Except AdminStoreError Unit) := do
  match ← sendEdge (.updateItem update) with
  | .error error => return .error (.backend ("update_item(" ++ what ++ "): " ++ error.message))
  | .ok (some _) => return .ok ()
  | .ok none => return .error .conflict

/-- Write the fail-open deadline with its audit, or alone when a newer action is stamped. -/
def setFailOpenUntil (deadline : ℕ) (audit : Audit) :
    Program Stores (Except AdminStoreError Unit) := do
  match ← sendGuardedEdge (.setFailOpenUntil deadline audit) "fail_open_until" with
  | .ok () => return .ok ()
  | .error (.backend message) => return .error (.backend message)
  | .error .conflict =>
      match ← sendEdge (.updateItem (.setFailOpenUntilFallback deadline)) with
      | .error error =>
          return .error (.backend ("update_item(fail_open_until_fallback): " ++ error.message))
      | .ok _ => return .ok ()

/-! ## The actions -/

/-- An edge store failure as the action reports it. -/
def edgeFailure {α : Type} (error : EdgeStoreError) : Except ApplyError α :=
  .error (.store (.backend ("edge config store error: " ++ error.message)))

def maxFailOpenMinutes : ℕ := 1440

/-- The duration a request asks for. -/
def parseMinutes (minutes : String) : Option ℕ :=
  (parseU32 minutes).filter fun minutes => 0 < minutes ∧ minutes ≤ maxFailOpenMinutes

/-- The deadline of a fail-open. -/
def failOpenDeadline (minutes : ℕ) (now : ArrivalTime) : ℕ :=
  saturatingAdd now.epochSeconds (saturatingMul minutes 60)

/-- Engage fail-open. -/
def applyFailOpen (console : Console) (minutes actor : String) (now : ArrivalTime) :
    Program Stores (Except ApplyError Unit) := do
  match parseMinutes minutes with
  | none => return .error (.action .invalidDuration)
  | some minutes =>
      match ← loadEvent with
      | .error error => return .error (.store error)
      | .ok none => return .error (.action .notFound)
      | .ok (some _) =>
          let deadline := failOpenDeadline minutes now
          match ← edgeReadModifyWrite console.text
              (fun config => { config with failOpenUntil := deadline }) with
          | .error error => return edgeFailure error
          | .ok _ =>
              match ← setFailOpenUntil deadline ⟨.failOpen, actor, now⟩ with
              | .error error => return .error (.store error)
              | .ok () => return .ok ()

/-- Clear the fail-open epoch. -/
def applyRecover (console : Console) (actor : String) (now : ArrivalTime) :
    Program Stores (Except ApplyError Unit) := do
  match ← loadEvent with
  | .error error => return .error (.store error)
  | .ok none => return .error (.action .notFound)
  | .ok (some _) =>
      match ← setFailOpenUntil 0 ⟨.recover, actor, now⟩ with
      | .error error => return .error (.store error)
      | .ok () =>
          match ← edgeReadModifyWrite console.text
              (fun config => { config with failOpenUntil := 0 }) with
          | .error error => return edgeFailure error
          | .ok _ => return .ok ()

/-- Turn the gate's address binding on or off. -/
def applyIpBinding (console : Console) (on : Bool) (actor : String) (now : ArrivalTime) :
    Program Stores (Except ApplyError Unit) := do
  match ← loadEvent with
  | .error error => return .error (.store error)
  | .ok none => return .error (.action .notFound)
  | .ok (some _) =>
      match ← edgeReadModifyWrite console.text (fun config => { config with bindIp := on }) with
      | .error error => return edgeFailure error
      | .ok _ =>
          -- a failed stamp is logged
          let _ ← sendGuardedEdge (.stampAction ⟨.setIpBinding, actor, now⟩) "stamp_action"
          return .ok ()

/-- What a ruleset may take, so that a later fail-open still fits. -/
def rulesWriteCeiling : ℕ := maxConfigBytes - 20

/-- What is checked of a ruleset before anything is written. -/
def checkRuleset (text : JsonText) (probe : GateConfig) (rules : List ProtectionRule) :
    Except ActionError Unit :=
  match encodeGateConfig text { probe with rules := rules } with
  | .error error => .error (.invalidRules error.message)
  | .ok encoded =>
      if rulesWriteCeiling < (utf8 encoded).length then
        .error (.invalidRules s!"ruleset is {(utf8 encoded).length} bytes, over the {rulesWriteCeiling}-byte limit reserved so a later fail-open can always still be written")
      else .ok ()

/-- Replace the gate's ruleset. -/
def applySetRules (console : Console) (rules : List ProtectionRule) (actor : String)
    (now : ArrivalTime) : Program Stores (Except ApplyError Unit) := do
  match ← loadEvent with
  | .error error => return .error (.store error)
  | .ok none => return .error (.action .notFound)
  | .ok (some _) =>
      match ← readConfig console.text with
      | .error error => return edgeFailure error
      | .ok (probe, _) =>
          match checkRuleset console.text probe rules with
          | .error error => return .error (.action error)
          | .ok () =>
              match ← edgeReadModifyWrite console.text
                  (fun config => { config with rules := rules }) with
              | .error error => return edgeFailure error
              | .ok config =>
                  let digest := match encodeGateConfig console.text config with
                    | .ok encoded => console.digest encoded
                    | .error _ => ""
                  -- a failed stamp is logged
                  let _ ← sendGuardedEdge
                    (.rulesAudit digest config.rules.length ⟨.setRules, actor, now⟩) "rules_audit"
                  return .ok ()

/-! ## The console -/

/-- One edge action of an operator. -/
inductive EdgeJob where
  | failOpen (minutes actor : String) (now : ArrivalTime)
  | recover (actor : String) (now : ArrivalTime)
  | ipBinding (on : Bool) (actor : String) (now : ArrivalTime)
  | setRules (rules : List ProtectionRule) (actor : String) (now : ArrivalTime)

/-- The program of an action. -/
def EdgeJob.program (console : Console) : EdgeJob → Program Stores (Except ApplyError Unit)
  | .failOpen minutes actor now => applyFailOpen console minutes actor now
  | .recover actor now => applyRecover console actor now
  | .ipBinding on actor now => applyIpBinding console on actor now
  | .setRules rules actor now => applySetRules console rules actor now

/-- What an action makes of the document. -/
def EdgeJob.edit : EdgeJob → GateConfig → GateConfig
  | .failOpen minutes _ now, config =>
      match parseMinutes minutes with
      | some minutes => { config with failOpenUntil := failOpenDeadline minutes now }
      | none => config
  | .recover _ _, config => { config with failOpenUntil := 0 }
  | .ipBinding on _ _, config => { config with bindIp := on }
  | .setRules rules _ _, config => { config with rules := rules }

/-- The edge actions of concurrent operators. -/
def edge (console : Console) : System Stores EdgeState EdgeJob (Except ApplyError Unit) EdgeChoice where
  program := EdgeJob.program console
  respond := respondEdge

end WaitingRoom.Edge
