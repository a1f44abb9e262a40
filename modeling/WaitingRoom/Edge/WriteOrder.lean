import WaitingRoom.Concurrency.Lift
import WaitingRoom.Edge.Conformance

/-!
# In which order an action writes its stores

Fail-open writes the item only after a put of the edge's document was answered, and recover puts the
document only after a write of the item was answered (`WritesInOrder`). The actions keep that order
whatever the stores answer (`edge_ordered`): each is a phase on one store, and then one on the other.
-/

set_option autoImplicit false

namespace WaitingRoom.Edge

open Dynamo Concurrency

/-- The actions that open and close the window. -/
def EdgeJob.setsWindow : EdgeJob → Bool
  | .failOpen _ _ _ | .recover _ _ => true
  | .ipBinding _ _ _ | .setRules _ _ _ => false

/-- A request on the edge's store. -/
def EdgeCall.AtEdge : EdgeCall → Prop
  | .describe | .getKey | .putKey _ _ => True
  | .getItem | .updateItem _ => False

/-- An answered write of a deadline to the item. The fallback is guarded by nothing, so no answer
tells whether it applied. -/
def DeadlineAnswered (deadline : ℕ) (exchange : Exchange Stores) : Prop :=
  ∃ update answer, exchange = edgeAnswered (.updateItem update) (.ok answer) ∧
    update.deadline = some deadline ∧
    (answer = none → update = .setFailOpenUntilFallback deadline)

/-- A window is opened at the edge first, and closed in the item first. -/
def WritesInOrder : EdgeJob → EdgeHistory → EdgeCall → Prop
  | .failOpen _ _ _, history, .updateItem _ => ∃ exchange ∈ history, PutAnswered exchange
  | .recover _ _, history, .putKey _ _ => ∃ exchange ∈ history, DeadlineAnswered 0 exchange
  | _, _, _ => True

/-! ## The phases -/

section Phases

variable {text : JsonText}

theorem readConfig_atEdge : (readConfig text).Issues EdgeCall.AtEdge := by
  refine ⟨trivial, fun answer => ?_⟩
  cases answer with
  | error error => exact trivial
  | ok etag =>
      refine ⟨trivial, fun answer => ?_⟩
      cases answer with
      | error error => exact trivial
      | ok value =>
          dsimp only [Program.bind]
          cases decodeGateConfig text value <;> exact trivial

theorem writeConfig_atEdge (etag : String) (config : GateConfig) :
    (writeConfig text etag config).Issues EdgeCall.AtEdge := by
  unfold writeConfig
  cases encodeGateConfig text config with
  | error error => exact trivial
  | ok encoded =>
      refine ⟨trivial, fun answer => ?_⟩
      cases answer <;> exact trivial

theorem edgeReadModifyWrite_atEdge (mutate : GateConfig → GateConfig) :
    (edgeReadModifyWrite text mutate).Issues EdgeCall.AtEdge := by
  refine Program.Issues.bind readConfig_atEdge fun result => ?_
  rcases result with error | ⟨config, etag⟩
  · exact trivial
  refine Program.Issues.bind (writeConfig_atEdge etag (mutate config)) fun result => ?_
  rcases result with error | done
  · refine Program.Issues.bind readConfig_atEdge fun result => ?_
    rcases result with error | ⟨config, etag⟩
    · exact trivial
    refine Program.Issues.bind (writeConfig_atEdge etag (mutate config)) fun result => ?_
    cases result <;> exact trivial
  · exact trivial

end Phases

section Order

variable {console : Console} {history : EdgeHistory}

/-- The write of a deadline, to an action that may write one here and later. -/
theorem setFailOpenUntil_ordered (job : EdgeJob) (deadline : ℕ) (audit : Audit)
    (lawful : ∀ newer update, WritesInOrder job (newer ++ history) (.updateItem update)) :
    Obeys (WritesInOrder job)
      (fun later result => result = .ok () → ∃ exchange ∈ later, DeadlineAnswered deadline exchange)
      history (setFailOpenUntil deadline audit) := by
  refine ⟨lawful [] _, fun answer => ?_⟩
  rcases answer with error | (_ | item)
  · exact nofun
  · refine ⟨lawful [_] _, fun answer => ?_⟩
    cases answer with
    | error error => exact nofun
    | ok found => exact fun _ => ⟨_, List.mem_cons_self, _, found, rfl, rfl, fun _ => rfl⟩
  · exact fun _ => ⟨_, List.mem_cons_self, _, some item, rfl, rfl, nofun⟩

theorem applyFailOpen_ordered (minutes actor : String) (now : ArrivalTime) :
    Obeys (WritesInOrder (.failOpen minutes actor now)) (fun _ _ => True) history
      (applyFailOpen console minutes actor now) := by
  unfold applyFailOpen
  cases parsed : parseMinutes minutes with
  | none => exact trivial
  | some duration =>
      refine ⟨trivial, fun answer => ?_⟩
      rcases answer with error | (_ | item)
      · exact trivial
      · exact trivial
      have edits : (EdgeJob.failOpen minutes actor now).Edits fun config =>
          { config with failOpenUntil := failOpenDeadline duration now } :=
        fun _ => ⟨⟨rfl, rfl, rfl, rfl⟩, duration, parsed, rfl⟩
      -- the edge's phase, with what it reports when it succeeds
      have atEdge : ∀ newer (request : EdgeCall), request.AtEdge →
          WritesInOrder (.failOpen minutes actor now) newer request := by
        intro newer request edge
        cases request with
        | describe | getKey | putKey _ _ => exact trivial
        | getItem | updateItem _ => cases edge
      have conforms : Obeys (edgeLegal console (.failOpen minutes actor now))
          (EditReport console (.failOpen minutes actor now))
          (edgeAnswered .getItem (.ok (some item)) :: history) (edgeReadModifyWrite console.text _) :=
        edgeReadModifyWrite_obeys edits
      have phase :=
        ((edgeReadModifyWrite_atEdge _).obeys_from fun _ _ edge => atEdge _ _ edge).and conforms
      refine (phase.mono (fun _ _ both => both.1) fun _ _ both => both.2).bind
        fun later result report => ?_
      cases result with
      | error error => exact trivial
      | ok config =>
          obtain ⟨exchange, member, put⟩ := report.put
          refine (setFailOpenUntil_ordered _ _ _ fun newer update => ?_).bind fun _ result _ => ?_
          · exact ⟨exchange, List.mem_append_right _ member, put⟩
          · cases result <;> exact trivial

theorem applyRecover_ordered (actor : String) (now : ArrivalTime) :
    Obeys (WritesInOrder (.recover actor now)) (fun _ _ => True) history
      (applyRecover console actor now) := by
  refine ⟨trivial, fun answer => ?_⟩
  rcases answer with error | (_ | item)
  · exact trivial
  · exact trivial
  refine (setFailOpenUntil_ordered (.recover actor now) 0 _ fun _ _ => trivial).bind fun later result report => ?_
  cases result with
  | error error => exact trivial
  | ok done =>
      obtain ⟨exchange, member, answered⟩ := report rfl
      refine ((edgeReadModifyWrite_atEdge _).obeys_from fun newer request edge => ?_).bind
        fun _ result _ => ?_
      · cases request with
        | describe | getKey => exact trivial
        | putKey _ _ => exact ⟨exchange, List.mem_append_right _ member, answered⟩
        | getItem | updateItem _ => cases edge
      · cases result <;> exact trivial

/-- **Every action writes its stores in its order, whatever they answer.** -/
theorem edge_ordered (job : EdgeJob) :
    Obeys (WritesInOrder job) (fun _ _ => True) [] ((edge console).program job) := by
  cases job with
  | failOpen minutes actor now => exact applyFailOpen_ordered minutes actor now
  | recover actor now => exact applyRecover_ordered actor now
  | ipBinding _ _ _ | setRules _ _ _ =>
      exact (obeys_trivial _ _).mono (fun _ _ _ => trivial) fun _ _ _ => trivial

end Order

end WaitingRoom.Edge
