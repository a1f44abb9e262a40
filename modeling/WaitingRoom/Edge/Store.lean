import WaitingRoom.Edge.GateConfig
import WaitingRoom.Lambda.Admin

/-!
# The two stores of an edge action

An edge action of the admin console reads and writes the gate's document in the edge's key-value
store, and the event's `Counters` item. A put carries the `ETag` its caller read; it succeeds when
that is still the store's, and gives the store one it never had before. A request may be lost, or
land with its answer lost, and the item may be read stale.
-/

set_option autoImplicit false

namespace WaitingRoom.Edge

open Dynamo Concurrency

/-! ## The updates of the item -/

/-- One `UpdateItem` of an edge action on the `Counters` item. -/
inductive EventUpdate where
  | setFailOpenUntil (deadline : ℕ) (audit : Audit)
  | setFailOpenUntilFallback (deadline : ℕ)
  | rulesAudit (digest : String) (count : ℕ) (audit : Audit)
  | stampAction (audit : Audit)

namespace EventUpdate

/-- The request on the item. -/
@[reducible] def counters : EventUpdate → CountersUpdate
  | .setFailOpenUntil deadline audit => .setFailOpenUntil deadline audit
  | .setFailOpenUntilFallback deadline => .setFailOpenUntilFallback deadline
  | .rulesAudit digest count audit => .rulesAudit digest count audit
  | .stampAction audit => .stampAction audit

/-- The condition expression of a request. -/
def condition (update : EventUpdate) : Condition := update.counters.condition

/-- The update expression of a request. -/
def clauses (update : EventUpdate) : List Clause := update.counters.clauses

/-- The deadline a request writes. -/
def deadline : EventUpdate → Option ℕ
  | .setFailOpenUntil deadline _ => some deadline
  | .setFailOpenUntilFallback deadline => some deadline
  | _ => none

end EventUpdate

/-! ## Requests -/

/-- A request of an edge action. -/
inductive EdgeCall where
  | getItem
  | updateItem (update : EventUpdate)
  | describe
  | getKey
  | putKey (etag value : String)

/-- What a request is answered with when its store does not fail. -/
@[reducible] def EdgePayload : EdgeCall → Type
  | .getItem => Option Item
  | .updateItem _ => Option Item
  | .describe => String
  | .getKey => String
  | .putKey _ _ => Unit

/-- The requests on the two stores and their answers. -/
abbrev Stores : Interface where
  Call := EdgeCall
  Answer call := Except StoreError (EdgePayload call)

/-- The key-value store's version and document, and the event's item. -/
structure EdgeState where
  etag : String
  value : String
  counters : Option Item

/-- The answer to a put under a superseded `ETag`. -/
def conflictException : StoreError := ⟨"ConflictException"⟩

/-- What a request does and answers. A put that succeeds gives the store a fresh `ETag`. -/
def performEdge (fresh : String) :
    (call : EdgeCall) → EdgeState → Except StoreError (EdgePayload call) × EdgeState
  | .getItem, state => (.ok state.counters, state)
  | .updateItem update, state =>
      match Dynamo.updateItem state.counters update.condition update.clauses with
      | .updated item => (.ok (some item), { state with counters := some item })
      | .conditionFailed => (.ok none, state)
      | .rejected => (.error validationError, state)
  | .describe, state => (.ok state.etag, state)
  | .getKey, state => (.ok state.value, state)
  | .putKey etag value, state =>
      if etag = state.etag then (.ok (), { state with etag := fresh, value := value })
      else (.error conflictException, state)

/-- What the environment may do with a request. -/
inductive EdgeChoice where
  | commit (fresh : String)
  | lost (error : StoreError)
  | landed (fresh : String) (error : StoreError)
  | stale (age : ℕ)

/-- The `ETag` was never the store's. -/
def NeverIssued (fresh : String) (past : List EdgeState) (state : EdgeState) : Prop :=
  ∀ old ∈ state :: past, old.etag ≠ fresh

instance (fresh : String) (past : List EdgeState) (state : EdgeState) :
    Decidable (NeverIssued fresh past state) := inferInstanceAs (Decidable (∀ _ ∈ _, _))

/-- How the stores answer a request. -/
def respondEdge (call : EdgeCall) (choice : EdgeChoice) (past : List EdgeState)
    (state : EdgeState) : Option (Except StoreError (EdgePayload call) × EdgeState) :=
  match choice with
  | .commit fresh =>
      if NeverIssued fresh past state then some (performEdge fresh call state) else none
  | .lost error => some (.error error, state)
  | .landed fresh error =>
      if NeverIssued fresh past state then some (.error error, (performEdge fresh call state).2)
      else none
  | .stale age =>
      match call with
      | .getItem => past[age]?.map fun old => (.ok old.counters, state)
      | _ => none

end WaitingRoom.Edge
