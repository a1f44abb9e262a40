import WaitingRoom.Edge.Actions

/-!
# What an edge action has read when it writes

A put carries the document its action has just read, with the action's own field set, under the
`ETag` that was described right before (`EditsRead`). A deadline that is written to the item is the
action's own (`EdgeJob.Deadline`). Every action conforms, whatever the stores answer
(`edge_obeys`).
-/

set_option autoImplicit false

namespace WaitingRoom.Edge

open Dynamo Concurrency

/-- The answered requests of one action, latest first. -/
abbrev EdgeHistory := List (Exchange Stores)

/-- One answered request. -/
abbrev edgeAnswered (call : EdgeCall) (answer : Except StoreError (EdgePayload call)) :
    Exchange Stores :=
  ⟨call, answer⟩

namespace EdgeJob

/-- The fields an action does not set are as they were. -/
def ChangesOnly : EdgeJob → GateConfig → GateConfig → Prop
  | .failOpen _ _ _, old, new | .recover _ _, old, new =>
      new.v = old.v ∧ new.enforceFrom = old.enforceFrom ∧ new.rules = old.rules ∧
        new.bindIp = old.bindIp
  | .ipBinding _ _ _, old, new =>
      new.v = old.v ∧ new.enforceFrom = old.enforceFrom ∧ new.failOpenUntil = old.failOpenUntil ∧
        new.rules = old.rules
  | .setRules _ _ _, old, new =>
      new.v = old.v ∧ new.enforceFrom = old.enforceFrom ∧ new.failOpenUntil = old.failOpenUntil ∧
        new.bindIp = old.bindIp

/-- The deadline an action writes. -/
def Deadline : EdgeJob → ℕ → Prop
  | .failOpen minutes _ now, deadline =>
      ∃ parsed, parseMinutes minutes = some parsed ∧ deadline = failOpenDeadline parsed now
  | .recover _ _, deadline => deadline = 0
  | _, _ => False

/-- The field an action sets has the requested value. -/
def Requested : EdgeJob → GateConfig → Prop
  | .ipBinding on _ _, new => new.bindIp = on
  | .setRules rules _ _, new => new.rules = rules
  | job, new => job.Deadline new.failOpenUntil

/-- A change of the document that is the action's own. -/
def Edits (job : EdgeJob) (mutate : GateConfig → GateConfig) : Prop :=
  ∀ config, job.ChangesOnly config (mutate config) ∧ job.Requested (mutate config)

theorem Deadline.lt {job : EdgeJob} {deadline : ℕ} (own : job.Deadline deadline) :
    deadline < u64Bound := by
  cases job with
  | failOpen minutes actor now =>
      obtain ⟨parsed, -, rfl⟩ := own
      exact saturatingAdd_lt _ _
  | recover actor now =>
      obtain rfl := own
      exact Nat.two_pow_pos 64
  | ipBinding _ _ _ | setRules _ _ _ => cases own

/-- An action that keeps the other fields keeps the numbers within bounds. -/
theorem fits_of_changes {job : EdgeJob} {old new : GateConfig} (fits : old.Fits)
    (changes : job.ChangesOnly old new) (requested : job.Requested new) : new.Fits := by
  cases job with
  | failOpen minutes actor now =>
      obtain ⟨v, enforceFrom, -, -⟩ := changes
      have own : (EdgeJob.failOpen minutes actor now).Deadline new.failOpenUntil := requested
      exact ⟨v ▸ fits.v, enforceFrom ▸ fits.enforceFrom, own.lt⟩
  | recover actor now =>
      obtain ⟨v, enforceFrom, -, -⟩ := changes
      have own : (EdgeJob.recover actor now).Deadline new.failOpenUntil := requested
      exact ⟨v ▸ fits.v, enforceFrom ▸ fits.enforceFrom, own.lt⟩
  | ipBinding on actor now | setRules rules actor now =>
      obtain ⟨v, enforceFrom, failOpenUntil, -⟩ := changes
      exact ⟨v ▸ fits.v, enforceFrom ▸ fits.enforceFrom, failOpenUntil ▸ fits.failOpenUntil⟩

end EdgeJob

/-- A put of the document that was just read, with the action's own field set. -/
def EditsRead (console : Console) (job : EdgeJob) (history : EdgeHistory) (etag value : String) :
    Prop :=
  ∃ text old new older,
    history = edgeAnswered .getKey (.ok text) :: edgeAnswered .describe (.ok etag) :: older ∧
      decodeGateConfig console.text text = some old ∧
      encodeGateConfig console.text new = .ok value ∧ job.ChangesOnly old new ∧ job.Requested new

/-- What an action has read by the time it makes a request. -/
def edgeLegal (console : Console) (job : EdgeJob) (history : EdgeHistory) : EdgeCall → Prop
  | .putKey etag value => EditsRead console job history etag value
  | .updateItem update => ∀ deadline, update.deadline = some deadline → job.Deadline deadline
  | _ => True

/-- A put that was answered without an error. -/
def PutAnswered (exchange : Exchange Stores) : Prop :=
  ∃ etag value, exchange = edgeAnswered (.putKey etag value) (.ok ())

/-- What a read-modify-write answers. -/
def EditReport (console : Console) (job : EdgeJob) (later : EdgeHistory) :
    Except EdgeStoreError GateConfig → Prop
  | .ok config => ∃ etag value older, later = edgeAnswered (.putKey etag value) (.ok ()) :: older ∧
      encodeGateConfig console.text config = .ok value ∧ config.Fits ∧ job.Requested config
  | .error _ => True

/-- What an action answers. -/
def ActionReport (history : EdgeHistory) (result : Except ApplyError Unit) : Prop :=
  result = .ok () → ∃ exchange ∈ history, PutAnswered exchange

section Conformance

variable {console : Console} {job : EdgeJob} {history : EdgeHistory}

/-- The document and its `ETag` are the last two answers. -/
theorem readConfig_obeys :
    Obeys (edgeLegal console job)
      (fun later => onResult (fun read => ∃ text, later =
          edgeAnswered .getKey (.ok text) :: edgeAnswered .describe (.ok read.2) :: history ∧
        decodeGateConfig console.text text = some read.1) fun _ => True)
      history (readConfig console.text) := by
  refine ⟨trivial, fun answer => ?_⟩
  cases answer with
  | error error => exact trivial
  | ok etag =>
      refine ⟨trivial, fun answer => ?_⟩
      cases answer with
      | error error => exact trivial
      | ok text =>
          dsimp only [Program.bind]
          cases decoded : decodeGateConfig console.text text with
          | none => exact trivial
          | some config => exact ⟨text, rfl, decoded⟩

/-- A put of what was read, edited. -/
theorem writeConfig_obeys {text etag : String} {older : EdgeHistory} {old new : GateConfig}
    (reads : history = edgeAnswered .getKey (.ok text) :: edgeAnswered .describe (.ok etag) :: older)
    (decoded : decodeGateConfig console.text text = some old) (changes : job.ChangesOnly old new)
    (requested : job.Requested new) :
    Obeys (edgeLegal console job)
      (fun later => onResult (fun _ => EditReport console job later (.ok new)) fun _ => True)
      history (writeConfig console.text etag new) := by
  unfold writeConfig
  cases encoded : encodeGateConfig console.text new with
  | error error => exact trivial
  | ok value =>
      refine ⟨⟨text, old, new, older, reads, decoded, encoded, changes, requested⟩, fun answer => ?_⟩
      cases answer with
      | error error => exact trivial
      | ok done => exact ⟨etag, value, history, rfl, encoded,
          EdgeJob.fits_of_changes (decode_fits decoded) changes requested, requested⟩

/-- **A read-modify-write conforms**, in its first attempt and in its second. -/
theorem edgeReadModifyWrite_obeys {mutate : GateConfig → GateConfig} (edits : job.Edits mutate) :
    Obeys (edgeLegal console job) (EditReport console job) history
      (edgeReadModifyWrite console.text mutate) := by
  refine readConfig_obeys.bind fun later result read => ?_
  rcases result with error | ⟨config, etag⟩
  · exact trivial
  obtain ⟨text, reads, decoded⟩ := read
  refine (writeConfig_obeys reads decoded (edits config).1 (edits config).2).bind
    fun again result written => ?_
  rcases result with error | done
  · refine readConfig_obeys.bind fun later result read => ?_
    rcases result with error | ⟨config, etag⟩
    · exact trivial
    obtain ⟨text, reads, decoded⟩ := read
    refine (writeConfig_obeys reads decoded (edits config).1 (edits config).2).bind
      fun last result written => ?_
    rcases result with error | done
    · exact trivial
    · exact written
  · exact written

/-- A deadline write forgets nothing. -/
theorem setFailOpenUntil_obeys {deadline : ℕ} (own : job.Deadline deadline) (audit : Audit) :
    Obeys (edgeLegal console job) (fun later _ => history ⊆ later) history
      (setFailOpenUntil deadline audit) := by
  have lawful : ∀ written, some deadline = some written → job.Deadline written := by
    rintro written same
    obtain rfl := Option.some.inj same
    exact own
  refine ⟨lawful, fun answer => ?_⟩
  rcases answer with error | (_ | item)
  · exact List.subset_cons_self _ _
  · refine ⟨lawful, fun answer => ?_⟩
    cases answer with
    | error error => exact List.subset_cons_of_subset _ (List.subset_cons_self _ _)
    | ok found => exact List.subset_cons_of_subset _ (List.subset_cons_self _ _)
  · exact List.subset_cons_self _ _

/-- A stamp writes no deadline. -/
theorem stamp_obeys {update : EventUpdate} (stamps : update.deadline = none) (what : String) :
    Obeys (edgeLegal console job) (fun later _ => history ⊆ later) history
      (sendGuardedEdge update what) := by
  refine ⟨fun deadline written => ?_, fun answer => ?_⟩
  · rw [stamps] at written
    cases written
  · rcases answer with error | (_ | item) <;> exact List.subset_cons_self _ _

/-- The load, then what an action does to an event that is there. -/
theorem loadEvent_bind_obeys {next : Item → Program Stores (Except ApplyError Unit)}
    (body : ∀ later item, Obeys (edgeLegal console job) ActionReport later (next item)) :
    Obeys (edgeLegal console job) ActionReport history (loadEvent >>= fun
      | .error error => pure (.error (.store error))
      | .ok none => pure (.error (.action .notFound))
      | .ok (some item) => next item) := by
  refine ⟨trivial, fun answer => ?_⟩
  rcases answer with error | (_ | item)
  · exact nofun
  · exact nofun
  · exact body _ item

/-- A read-modify-write that returned a config has put it. -/
theorem EditReport.put {later : EdgeHistory} {config : GateConfig}
    (report : EditReport console job later (.ok config)) :
    ∃ exchange ∈ later, PutAnswered exchange := by
  obtain ⟨etag, value, older, rfl, -⟩ := report
  exact ⟨_, List.mem_cons_self, etag, value, rfl⟩

theorem applyFailOpen_obeys (minutes actor : String) (now : ArrivalTime) :
    Obeys (edgeLegal console (.failOpen minutes actor now)) ActionReport history
      (applyFailOpen console minutes actor now) := by
  unfold applyFailOpen
  cases parsed : parseMinutes minutes with
  | none => exact nofun
  | some duration =>
      refine loadEvent_bind_obeys fun later item => ?_
      have own : (EdgeJob.failOpen minutes actor now).Deadline (failOpenDeadline duration now) :=
        ⟨duration, parsed, rfl⟩
      have edits : (EdgeJob.failOpen minutes actor now).Edits fun config =>
          { config with failOpenUntil := failOpenDeadline duration now } :=
        fun _ => ⟨⟨rfl, rfl, rfl, rfl⟩, own⟩
      refine (edgeReadModifyWrite_obeys edits).bind fun edited result report => ?_
      cases result with
      | error error => exact nofun
      | ok config =>
          refine (setFailOpenUntil_obeys own _).bind fun last result keeps => ?_
          cases result with
          | error error => exact nofun
          | ok done =>
              intro _
              obtain ⟨exchange, member, put⟩ := report.put
              exact ⟨exchange, keeps member, put⟩

theorem applyRecover_obeys (actor : String) (now : ArrivalTime) :
    Obeys (edgeLegal console (.recover actor now)) ActionReport history
      (applyRecover console actor now) := by
  refine loadEvent_bind_obeys fun later item => ?_
  have own : (EdgeJob.recover actor now).Deadline 0 := rfl
  have edits : (EdgeJob.recover actor now).Edits fun config => { config with failOpenUntil := 0 } :=
    fun _ => ⟨⟨rfl, rfl, rfl, rfl⟩, rfl⟩
  refine (setFailOpenUntil_obeys own _).bind fun written result _ => ?_
  cases result with
  | error error => exact nofun
  | ok done =>
      refine (edgeReadModifyWrite_obeys edits).bind fun edited result report => ?_
      cases result with
      | error error => exact nofun
      | ok config => exact fun _ => report.put

theorem applyIpBinding_obeys (on : Bool) (actor : String) (now : ArrivalTime) :
    Obeys (edgeLegal console (.ipBinding on actor now)) ActionReport history
      (applyIpBinding console on actor now) := by
  refine loadEvent_bind_obeys fun later item => ?_
  have edits : (EdgeJob.ipBinding on actor now).Edits fun config => { config with bindIp := on } :=
    fun _ => ⟨⟨rfl, rfl, rfl, rfl⟩, rfl⟩
  refine (edgeReadModifyWrite_obeys edits).bind fun edited result report => ?_
  cases result with
  | error error => exact nofun
  | ok config =>
      refine (stamp_obeys rfl _).bind fun last result keeps _ => ?_
      obtain ⟨exchange, member, put⟩ := report.put
      exact ⟨exchange, keeps member, put⟩

theorem applySetRules_obeys (rules : List ProtectionRule) (actor : String) (now : ArrivalTime) :
    Obeys (edgeLegal console (.setRules rules actor now)) ActionReport history
      (applySetRules console rules actor now) := by
  refine loadEvent_bind_obeys fun later item => ?_
  have edits : (EdgeJob.setRules rules actor now).Edits fun config => { config with rules := rules } :=
    fun _ => ⟨⟨rfl, rfl, rfl, rfl⟩, rfl⟩
  -- the probe writes nothing
  refine readConfig_obeys.bind fun probed result _ => ?_
  rcases result with error | ⟨probe, etag⟩
  · exact nofun
  cases checked : checkRuleset console.text probe rules with
  | error error =>
      simp only [checked]
      exact nofun
  | ok done =>
      simp only [checked]
      refine (edgeReadModifyWrite_obeys edits).bind fun edited result report => ?_
      cases result with
      | error error => exact nofun
      | ok config =>
          refine (stamp_obeys rfl _).bind fun last result keeps _ => ?_
          obtain ⟨exchange, member, put⟩ := report.put
          exact ⟨exchange, keeps member, put⟩

/-- **Every edge action conforms, whatever the stores answer.** -/
theorem edge_obeys (job : EdgeJob) :
    Obeys (edgeLegal console job) ActionReport [] ((edge console).program job) := by
  cases job with
  | failOpen minutes actor now => exact applyFailOpen_obeys minutes actor now
  | recover actor now => exact applyRecover_obeys actor now
  | ipBinding on actor now => exact applyIpBinding_obeys on actor now
  | setRules rules actor now => exact applySetRules_obeys rules actor now

/-- An action's edit is its own, if its duration is one. -/
theorem edit_edits (valid : ∀ minutes actor now, job = .failOpen minutes actor now →
    parseMinutes minutes ≠ none) : job.Edits job.edit := by
  intro config
  cases job with
  | failOpen minutes actor now =>
      obtain ⟨duration, parsed⟩ := Option.ne_none_iff_exists'.mp (valid minutes actor now rfl)
      simp only [EdgeJob.edit, parsed]
      exact ⟨⟨rfl, rfl, rfl, rfl⟩, duration, parsed, rfl⟩
  | recover _ _ | ipBinding _ _ _ | setRules _ _ _ => exact ⟨⟨rfl, rfl, rfl, rfl⟩, rfl⟩

end Conformance

end WaitingRoom.Edge
