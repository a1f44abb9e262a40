import WaitingRoom.Protocol.Opening

/-!
# An active event is an opened one

The phase has three writers under two guards, each acting on a load that may be old. In every
reachable state the open's outputs are there together or not at all, an active event has
them, and once they are there nothing changes them (`active_is_opened`).
-/

set_option autoImplicit false

namespace WaitingRoom

open Dynamo Concurrency

/-- The three outputs of the open are on the item and every reader can parse them. -/
structure HasOutputs (d : Deployment) (db : Db) : Prop where
  present : ∀ name ∈ CountersUpdate.openAttrs, db.attr name ≠ none
  parsed : (d.view db).openOutputs.isSome

/-- None of the outputs of the open is on the item. -/
def NoOutputs (db : Db) : Prop := ∀ name ∈ CountersUpdate.openAttrs, db.attr name = none

section Phases

variable {d : Deployment} {policy : RoomPolicy} {origin db : Db} {c later : Room}

/-- Outputs that parse are present. -/
theorem present_of_openOutputs (parsed : (d.view db).openOutputs.isSome) :
    ∀ name ∈ CountersUpdate.openAttrs, db.attr name ≠ none := by
  intro name member absent
  obtain ⟨outputs, found⟩ := Option.isSome_iff_exists.mp parsed
  simp only [Counters.openOutputs, Option.bind_eq_bind, Option.bind_eq_some_iff] at found
  obtain ⟨seed, hasSeed, offsets, hasOffsets, count, hasCount, -⟩ := found
  simp only [CountersUpdate.openAttrs, List.mem_cons, List.not_mem_nil, or_false] at member
  simp only [Db.attr] at absent
  rcases member with rfl | rfl | rfl
  · simp [Counters.fromItem, absent] at hasSeed
  · simp [Counters.fromItem, num, absent] at hasCount
  · simp [Counters.fromItem, absent] at hasOffsets

/-- An opened event has its outputs. -/
theorem Opening.hasOutputs (opening : Opening d db) (opened : db.Opened) : HasOutputs d db := by
  obtain ⟨counts, seed, published⟩ := opening.published opened
  have parsed : (d.view db).openOutputs.isSome := by rw [published.outputs]; rfl
  exact ⟨present_of_openOutputs parsed, parsed⟩

/-- The parsed phase is active only if the stored one is. -/
theorem stored_of_active (active : (d.view db).phase = .active) :
    db.attr "phase" = some (.S Phase.active.asWireStr) := by
  simp only [Counters.fromItem, str] at active
  cases stored : db.counters.getD .empty "phase" with
  | none => simp [stored] at active
  | some value =>
      cases value with
      | S text =>
          cases read : Phase.fromStr text with
          | none => simp [stored, AttributeValue.asS, read] at active
          | some phase =>
              simp only [stored, Option.bind_some, AttributeValue.asS, read, Option.getD_some] at active
              rw [Db.attr, stored, Phase.asWireStr_of_fromStr read, active]
      | N _ | B _ | L _ => simp [stored, AttributeValue.asS] at active

/-- **Active means opened, and the open happens once.** In every reachable state an active
event has the open's outputs, they are all present or all absent, and what is present is
never changed afterwards. -/
theorem active_is_opened (seeded : Seeded origin) (run : RoomRun d .free origin c) :
    ((d.view c.state).phase = .active → HasOutputs d c.state) ∧
      (NoOutputs c.state ∨ HasOutputs d c.state) ∧
      ∀ later, (room d).Reaches .free c later → ∀ name ∈ CountersUpdate.openAttrs,
        c.state.attr name ≠ none → ∀ other ∈ CountersUpdate.openAttrs,
          later.state.attr other = c.state.attr other := by
  have opening := run.trace.opening seeded
  refine ⟨fun active => ?_, ?_, fun later goesOn name member present other => ?_⟩
  · exact opening.hasOutputs (opening.active (stored_of_active active))
  · by_cases opened : c.state.Opened
    · exact .inr (opening.hasOutputs opened)
    · exact .inl (opening.unopened opened)
  · refine (run.grows goesOn).opened ?_ other
    by_contra unopened
    exact present (opening.unopened unopened name member)

end Phases

/-- An open of the sample event, from its start to its write. -/
theorem active_is_opened_sample : ∃ c : Room,
    RoomRun Sample.deployment .free Sample.origin c ∧
      (Sample.deployment.view c.state).phase = .active ∧ HasOutputs Sample.deployment c.state := by
  obtain ⟨c, run, active⟩ := System.exists_reaches_of_run
    (show ((room Sample.deployment).run .free (.initial Sample.origin)
      (.start (.openEvent Sample.seed .ascending) :: Sample.commits 0 11)).any
        (fun c => decide ((Sample.deployment.view c.state).phase = .active)) by decide +kernel)
  have isActive := of_decide_eq_true active
  exact ⟨c, run, isActive, (active_is_opened Sample.origin_seeded run).1 isActive⟩

end WaitingRoom
