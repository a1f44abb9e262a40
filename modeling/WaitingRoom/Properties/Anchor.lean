import WaitingRoom.Edge.Configuration
import WaitingRoom.Operators
import WaitingRoom.Schedule.Announcement
import WaitingRoom.Store.Growth

/-!
# The debounce anchor

Every stamped action writes the instant its request arrived to the `Counters` item, and the debounce
measures from there. A stamp that lands under its own guard is never older than the one it replaces.
The two phase writes are guarded on the phase alone, so one that arrived earlier can land later
(`phase_write_regresses`). Where none does, the anchor never goes back, the stamped fields are those
of the latest arrival, and landed debounced actions are two seconds apart; and where the anchor never
goes back, none does (`anchor_never_regresses`).
-/

set_option autoImplicit false

namespace WaitingRoom

open Dynamo Concurrency

/-! ## Stamps on the item -/

/-- The attributes of a stamp. -/
def auditAttrs : List String :=
  ["last_action", "last_action_by", "last_action_at", "last_action_epoch_ms"]

/-- An attribute of the item. -/
def OperatorState.attr (state : OperatorState) (name : String) : Option AttributeValue :=
  state.db.counters.getD .empty name

/-- The stamped instant. -/
def OperatorState.anchor (state : OperatorState) : Option ℚ :=
  (state.attr "last_action_epoch_ms").bind AttributeValue.asN

/-- The stamped fields are an action's. -/
structure Describes (state : OperatorState) (audit : Audit) : Prop where
  action : state.attr "last_action" = some (.S audit.action.asStr)
  actor : state.attr "last_action_by" = some (.S audit.actor)
  instant : state.attr "last_action_at" = some (.S (auditTimestamp audit.now))
  millis : state.attr "last_action_epoch_ms" = some (.N audit.now.millis)

/-- An update of the item landed. -/
def UpdateLanded (entry : OperatorEntry) (update : ItemUpdate) : Prop :=
  entry.exchange.call.itemUpdate = some update ∧
    ∃ item, Dynamo.updateItem entry.before.db.counters update.condition update.clauses =
      .updated item ∧ entry.after.db.counters = some item

/-- A stamp landed. -/
def StampLanded (entry : OperatorEntry) (audit : Audit) : Prop :=
  ∃ update, UpdateLanded entry update ∧ update.audit = some audit

/-- A debounced action landed. -/
def DebouncedLanded (entry : OperatorEntry) (audit : Audit) : Prop :=
  ∃ update, UpdateLanded entry update ∧ update.audit = some audit ∧ update.guarded = .debounced

/-! ## What the anchor is for -/

/-- A request does not take the anchor back. -/
def AnchorGrows (entry : OperatorEntry) : Prop :=
  ∀ old, entry.before.anchor = some old → ∃ new, entry.after.anchor = some new ∧ old ≤ new

/-- The stamped fields are those of a landed stamp that arrived latest, or no stamp has landed and
they are as they were. -/
def DescribesLatest (origin : OperatorState) (log : List OperatorEntry) (state : OperatorState) : Prop :=
  (∀ entry ∈ log, ∀ audit, ¬ StampLanded entry audit) ∧
      (∀ name ∈ auditAttrs, state.attr name = origin.attr name) ∨
    ∃ entry ∈ log, ∃ audit, StampLanded entry audit ∧ Describes state audit ∧
      ∀ other ∈ log, ∀ stamp, StampLanded other stamp → stamp.now.millis ≤ audit.now.millis

/-- Debounced actions that landed arrived at least the debounce window apart. -/
def DebouncedApart (log : List OperatorEntry) : Prop :=
  ∀ newer second between first older, log = newer ++ second :: (between ++ first :: older) →
    ∀ earlier later, DebouncedLanded first earlier → DebouncedLanded second later →
      earlier.now.millis + debounceMillis ≤ later.now.millis

/-- A phase write that lands arrived no earlier than the stamped instant. -/
def PhaseWriteInOrder (entry : OperatorEntry) : Prop :=
  ∀ update audit, UpdateLanded entry update → update.audit = some audit → update.guarded = .phase →
    ∀ old, entry.before.anchor = some old → old ≤ audit.now.millis

/-! ## The updates -/

/-- An item's anchor, where there is one, is a number at most that. -/
def AnchorAtMost (item : Item) (bound : ℚ) : Prop :=
  item "last_action_epoch_ms" = none ∨
    ∃ old, (item "last_action_epoch_ms").bind AttributeValue.asN = some old ∧ old ≤ bound

theorem anchorAtMost_of_holds {item : Item} {bound : ℚ}
    (holds : (Condition.or (.attributeNotExists "last_action_epoch_ms")
      (.atMost "last_action_epoch_ms" bound)).holds item) : AnchorAtMost item bound := by
  simp only [Condition.holds, Bool.or_eq_true, Option.isNone_iff_eq_none] at holds
  rcases holds with absent | atMost
  · exact .inl absent
  · obtain ⟨old, found, small⟩ := (Option.any_eq_true _ _).mp atMost
    exact .inr ⟨old, found, of_decide_eq_true small⟩

section Updates

variable {call : OperatorCall} {update : ItemUpdate} {stored : Option Item} {item : Item}
  {audit : Audit}

/-- Who updates the item. -/
theorem itemUpdate_cases (found : call.itemUpdate = some update) :
    ∃ sent : CountersUpdate, call.countersUpdate = some sent ∧
      update = ⟨sent.condition, sent.clauses, sent.audit, sent.guarded⟩ := by
  obtain ⟨sent, sends, rfl⟩ := Option.map_eq_some_iff.mp found
  exact ⟨sent, sends, rfl⟩

/-- A stamped update ends in the stamp. -/
theorem clauses_of_audit (found : call.itemUpdate = some update) (stamped : update.audit = some audit) :
    ∃ effect, update.clauses = effect ++ CountersUpdate.auditClauses audit := by
  obtain ⟨sent, -, rfl⟩ := itemUpdate_cases found
  cases sent with
  | claimBlock _ | writeOpen _ | writeRelease _ _ | setFailOpenUntilFallback _ => cases stamped
  | setPhase _ _ _ | setRate _ _ _ | setMessage _ _ | setStoredControl _ _ _ | forceMaintenance _ _
  | setFailOpenUntil _ _ =>
      obtain rfl := Option.some.inj stamped
      exact ⟨[_], rfl⟩
  | stampAction _ =>
      obtain rfl := Option.some.inj stamped
      exact ⟨[], rfl⟩
  | rulesAudit _ _ _ =>
      obtain rfl := Option.some.inj stamped
      exact ⟨[_, _], rfl⟩
  | setStartsAt _ _ =>
      obtain rfl := Option.some.inj stamped
      exact ⟨_, rfl⟩

/-- An update without a stamp leaves the stamped fields alone. -/
theorem clauses_of_unstamped (found : call.itemUpdate = some update) (unstamped : update.audit = none) :
    ∀ name ∈ auditAttrs, ∀ clause ∈ update.clauses, name ≠ clause.attr := by
  obtain ⟨sent, -, rfl⟩ := itemUpdate_cases found
  cases sent with
  | claimBlock _ | writeOpen _ | writeRelease _ _ | setFailOpenUntilFallback _ =>
      simp [auditAttrs, CountersUpdate.clauses, Clause.attr]
  | setPhase _ _ _ | setRate _ _ _ | setMessage _ _ | setStoredControl _ _ _
  | forceMaintenance _ _ | stampAction _ | setFailOpenUntil _ _ | rulesAudit _ _ _
  | setStartsAt _ _ => cases unstamped

/-- How far back a guard lets the anchor go. -/
def StampGuard.allows (guarded : StampGuard) (audit : Audit) (item : Item) : Prop :=
  match guarded with
  | .debounced => AnchorAtMost item (((audit.now.millis : ℤ) - (debounceMillis : ℤ) : ℤ) : ℚ)
  | .newest => AnchorAtMost item audit.now.millis
  | .phase => True

/-- **A stamped update's condition implies its guard.** -/
theorem guarded_of_holds (found : call.itemUpdate = some update) (stamped : update.audit = some audit)
    (holds : update.condition.holds item) : update.guarded.allows audit item := by
  obtain ⟨sent, -, rfl⟩ := itemUpdate_cases found
  cases sent with
  | claimBlock _ | writeOpen _ | writeRelease _ _ | setFailOpenUntilFallback _ => cases stamped
  | setPhase _ _ _ | forceMaintenance _ _ => exact trivial
  | setMessage _ _ | stampAction _ | setFailOpenUntil _ _ | rulesAudit _ _ _ | setStartsAt _ _ =>
      obtain rfl := Option.some.inj stamped
      exact anchorAtMost_of_holds holds
  | setRate _ _ _ | setStoredControl _ _ _ =>
      obtain rfl := Option.some.inj stamped
      exact anchorAtMost_of_holds (Bool.and_eq_true_iff.mp holds).2

end Updates

/-! ## One request -/

/-- A request leaves the item alone, or lands its update. -/
theorem respondOperator_counters {call : OperatorCall} {choice : OperatorChoice}
    {past : List OperatorState} {before after : OperatorState}
    {answer : Except StoreError (OperatorPayload call)}
    (responds : respondOperator call choice past before = some (answer, after)) :
    after.db.counters = before.db.counters ∨ ∃ update item, call.itemUpdate = some update ∧
      Dynamo.updateItem before.db.counters update.condition update.clauses = .updated item ∧
        after.db.counters = some item := by
  cases call with
  | tables call =>
      cases choice with
      | tables choice =>
          obtain ⟨⟨_, db⟩, replied, same⟩ := Option.map_eq_some_iff.mp responds
          obtain rfl : _ = after := congrArg Prod.snd same
          rcases (respond_effect replied).counters_cases with kept | ⟨sent, item, rfl, updated, stored⟩
          · exact .inl kept
          · exact .inr ⟨_, item, rfl, updated, stored⟩
      | edge _ | start _ => cases responds
  | edge call =>
      cases choice with
      | edge choice =>
          obtain ⟨⟨_, stores⟩, replied, same⟩ := Option.map_eq_some_iff.mp responds
          obtain rfl : _ = after := congrArg Prod.snd same
          rcases Edge.respondEdge_state replied with rfl | ⟨fresh, -, rfl⟩
          · exact .inl rfl
          cases call with
          | getItem | describe | getKey => exact .inl rfl
          | putKey etag value =>
              refine .inl ?_
              simp only [Edge.performEdge]
              split <;> rfl
          | updateItem sent =>
              simp only [Edge.performEdge]
              split
              · rename_i item updated
                exact .inr ⟨_, item, rfl, updated, rfl⟩
              · exact .inl rfl
              · exact .inl rfl
      | tables _ | start _ => cases responds
  | start call =>
      cases choice with
      | start choice =>
          obtain ⟨⟨_, stores⟩, replied, same⟩ := Option.map_eq_some_iff.mp responds
          obtain rfl : _ = after := congrArg Prod.snd same
          obtain ⟨fired, -, rfl | rfl⟩ := Schedule.respondStart_state replied
          · exact .inl rfl
          cases call with
          | getItem | getSchedule _ | updateSchedule _ => exact .inl rfl
          | setStartsAt startsAt audit =>
              simp only [Schedule.performStart]
              split
              · rename_i item updated
                exact .inr ⟨_, item, rfl, updated, rfl⟩
              · exact .inl rfl
              · exact .inl rfl
      | tables _ | edge _ => cases responds

section Landed

variable {entry : OperatorEntry} {audit : Audit}

/-- A request makes at most one stamp. -/
theorem StampLanded.unique {other : Audit} (landed : StampLanded entry audit)
    (again : StampLanded entry other) : audit = other := by
  obtain ⟨update, ⟨found, -⟩, stamped⟩ := landed
  obtain ⟨update', ⟨found', -⟩, stamped'⟩ := again
  obtain rfl := Option.some.inj (found.symm.trans found')
  exact Option.some.inj (stamped.symm.trans stamped')

/-- **A stamp that landed is what the item says.** -/
theorem StampLanded.describes (landed : StampLanded entry audit) : Describes entry.after audit := by
  obtain ⟨update, ⟨found, item, updated, stored⟩, stamped⟩ := landed
  obtain ⟨effect, clauses⟩ := clauses_of_audit found stamped
  rw [clauses] at updated
  have held : ∀ name value before after,
      CountersUpdate.auditClauses audit = before ++ .set name value :: after →
      (∀ clause ∈ after, name ≠ clause.attr) → entry.after.attr name = some value := by
    intro name value before after split last
    rw [split, ← List.append_assoc] at updated
    rw [OperatorState.attr, stored, Option.getD_some, updateItem_set (effect ++ before) updated last]
  constructor
  · exact held _ _ [] _ rfl (by simp [Clause.attr])
  · exact held _ _ [_] _ rfl (by simp [Clause.attr])
  · exact held _ _ [_, _] _ rfl (by simp [Clause.attr])
  · exact held _ _ [_, _, _] [] rfl (by simp)

/-- The anchor of a described state. -/
theorem Describes.anchor {state : OperatorState} (describes : Describes state audit) :
    state.anchor = some audit.now.millis := by
  rw [OperatorState.anchor, describes.millis]
  rfl

/-- A state with the same stamped fields is described by the same stamp. -/
theorem Describes.of_attrs {state state' : OperatorState} (describes : Describes state audit)
    (same : ∀ name ∈ auditAttrs, state'.attr name = state.attr name) : Describes state' audit := by
  constructor
  · exact (same _ (by simp [auditAttrs])).trans describes.action
  · exact (same _ (by simp [auditAttrs])).trans describes.actor
  · exact (same _ (by simp [auditAttrs])).trans describes.instant
  · exact (same _ (by simp [auditAttrs])).trans describes.millis

/-- **A stamp that lands is no older than the one it replaces**, where phase writes are in order. -/
theorem StampLanded.not_older (landed : StampLanded entry audit) (order : PhaseWriteInOrder entry)
    {old : ℚ} (anchored : entry.before.anchor = some old) : old ≤ audit.now.millis := by
  obtain ⟨update, whole, stamped⟩ := landed
  have ⟨found, item, updated, _⟩ := whole
  have guarded := guarded_of_holds found stamped (updateItem_holds updated)
  have bounded : ∀ bound, AnchorAtMost (entry.before.db.counters.getD .empty) bound → old ≤ bound := by
    rintro bound (absent | ⟨number, stored, small⟩)
    · rw [OperatorState.anchor, OperatorState.attr, absent] at anchored
      cases anchored
    · obtain rfl := Option.some.inj (anchored.symm.trans stored)
      exact small
  cases kind : update.guarded with
  | phase => exact order update audit whole stamped kind old anchored
  | newest =>
      rw [kind] at guarded
      exact bounded _ guarded
  | debounced =>
      rw [kind] at guarded
      refine (bounded _ guarded).trans ?_
      push_cast
      exact sub_le_self _ (Nat.cast_nonneg _)

/-- A debounced action that lands arrived the debounce window after the stamp it replaces. -/
theorem DebouncedLanded.window (landed : DebouncedLanded entry audit) {older : Audit}
    (describes : Describes entry.before older) :
    older.now.millis + debounceMillis ≤ audit.now.millis := by
  obtain ⟨update, ⟨found, item, updated, -⟩, stamped, kind⟩ := landed
  have guarded := guarded_of_holds found stamped (updateItem_holds updated)
  rw [kind] at guarded
  have millis := describes.millis
  rw [OperatorState.attr] at millis
  rcases guarded with absent | ⟨number, stored, small⟩
  · rw [absent] at millis
    cases millis
  · rw [millis] at stored
    obtain rfl := Option.some.inj stored
    have whole : ((older.now.millis : ℤ) : ℚ) ≤
        (((audit.now.millis : ℤ) - (debounceMillis : ℤ) : ℤ) : ℚ) := small
    have room := Int.cast_le.mp whole
    omega

theorem DebouncedLanded.stampLanded (landed : DebouncedLanded entry audit) :
    StampLanded entry audit := by
  obtain ⟨update, whole, stamped, -⟩ := landed
  exact ⟨update, whole, stamped⟩

end Landed

/-! ## Runs -/

/-- The log of a run, in which every request stamps its action's arrival. -/
abbrev OperatorTrace (console : Deployment) (origin : OperatorState) (log : List OperatorEntry)
    (state : OperatorState) : Prop :=
  Trace (operators console) .free (fun job _ call => OperatorCall.StampsAt job.arrival call) origin log
    state

/-- What a request does to the stamped fields. -/
inductive StampEffect (entry : OperatorEntry) : Prop where
  | kept (unstamped : ∀ audit, ¬ StampLanded entry audit)
      (same : ∀ name ∈ auditAttrs, entry.after.attr name = entry.before.attr name)
  | stamped (audit : Audit) (landed : StampLanded entry audit)

/-- One logged request, and the log below it. -/
structure OperatorLogged (console : Deployment) (origin : OperatorState)
    (older : List OperatorEntry) (entry : OperatorEntry) : Prop where
  earlier : OperatorTrace console origin older entry.before
  own : entry.exchange.call.StampsAt entry.job.arrival
  responds : ∃ choice, respondOperator entry.exchange.call choice (past older) entry.before =
    some (entry.exchange.answer, entry.after)

section Runs

variable {console : Deployment} {origin state : OperatorState}
  {log newer older : List OperatorEntry} {entry : OperatorEntry}

theorem OperatorTrace.logged_head (trace : OperatorTrace console origin (entry :: older) state) :
    OperatorLogged console origin older entry ∧ entry.after = state := by
  cases trace with
  | cons earlier own _ responds => exact ⟨⟨earlier, own, _, responds⟩, rfl⟩

theorem OperatorTrace.logged (trace : OperatorTrace console origin (newer ++ entry :: older) state) :
    OperatorLogged console origin older entry := by
  obtain ⟨earlier, own, choice, -, responds⟩ := Trace.split trace
  exact ⟨earlier, own, choice, responds⟩

theorem OperatorTrace.logged_of_mem (trace : OperatorTrace console origin log state)
    (member : entry ∈ log) : ∃ older, OperatorLogged console origin older entry := by
  obtain ⟨newer, older, rfl⟩ := List.append_of_mem member
  exact ⟨older, trace.logged⟩

theorem operatorTrace {c : OperatorRoom} (run : OperatorRun console origin c) :
    OperatorTrace console origin c.log c.state :=
  run.trace fun job => (operators_own console job).obeys []

/-- **What a request does**: it leaves the stamped fields alone, or lands a stamp. -/
theorem stampEffect {past : List OperatorState} {choice : OperatorChoice}
    (responds : respondOperator entry.exchange.call choice past entry.before =
      some (entry.exchange.answer, entry.after)) : StampEffect entry := by
  by_cases stamps : ∃ audit, StampLanded entry audit
  · obtain ⟨audit, landed⟩ := stamps
    exact .stamped audit landed
  refine .kept (not_exists.mp stamps) fun name member => ?_
  rcases respondOperator_counters responds with same | ⟨update, item, found, updated, stored⟩
  · rw [OperatorState.attr, same, OperatorState.attr]
  cases stamped : update.audit with
  | some audit => exact absurd ⟨audit, update, ⟨found, item, updated, stored⟩, stamped⟩ stamps
  | none =>
      rw [OperatorState.attr, stored, Option.getD_some, OperatorState.attr]
      exact updateItem_of_ne updated (clauses_of_unstamped found stamped name member)

/-- **Where phase writes are in order, the item is the latest arrival's.** -/
theorem describesLatest_of_inOrder (trace : OperatorTrace console origin log state)
    (order : ∀ entry ∈ log, PhaseWriteInOrder entry) : DescribesLatest origin log state := by
  induction log generalizing state with
  | nil =>
      cases trace
      exact .inl ⟨List.forall_mem_nil _, fun _ _ => rfl⟩
  | cons entry older ih =>
      obtain ⟨logged, rfl⟩ := trace.logged_head
      have latest := ih logged.earlier fun entry member => order entry (List.mem_cons_of_mem _ member)
      have here := order _ List.mem_cons_self
      obtain ⟨choice, responds⟩ := logged.responds
      cases stampEffect responds with
      | kept unstamped same =>
          rcases latest with ⟨none, unchanged⟩ | ⟨entry, member, audit, landed, describes, largest⟩
          · refine .inl ⟨List.forall_mem_cons.mpr ⟨unstamped, none⟩, fun name member => ?_⟩
            exact (same name member).trans (unchanged name member)
          · refine .inr ⟨entry, List.mem_cons_of_mem _ member, audit, landed, describes.of_attrs same,
              List.forall_mem_cons.mpr ⟨fun stamp lands => absurd lands (unstamped stamp), largest⟩⟩
      | stamped audit landed =>
          refine .inr ⟨_, List.mem_cons_self, audit, landed, landed.describes,
            List.forall_mem_cons.mpr ⟨fun stamp lands => ?_, fun other member stamp lands => ?_⟩⟩
          · rw [lands.unique landed]
          · rcases latest with ⟨none, -⟩ | ⟨entry, _, newest, _, describes, largest⟩
            · exact absurd lands (none other member stamp)
            · have replaced := landed.not_older here describes.anchor
              exact (largest other member stamp lands).trans (Nat.cast_le.mp replaced)

theorem anchorGrows_of_inOrder {past : List OperatorState} {choice : OperatorChoice}
    (responds : respondOperator entry.exchange.call choice past entry.before =
      some (entry.exchange.answer, entry.after)) (order : PhaseWriteInOrder entry) :
    AnchorGrows entry := by
  intro old anchored
  cases stampEffect responds with
  | kept _ same =>
      refine ⟨old, ?_, le_rfl⟩
      rw [OperatorState.anchor, same _ (by simp [auditAttrs])]
      exact anchored
  | stamped audit landed =>
      exact ⟨_, landed.describes.anchor, landed.not_older order anchored⟩

theorem inOrder_of_anchorGrows (grows : AnchorGrows entry) : PhaseWriteInOrder entry := by
  intro update audit landed stamped _ old anchored
  obtain ⟨new, anchored', larger⟩ := grows old anchored
  have described : StampLanded entry audit := ⟨update, landed, stamped⟩
  rw [described.describes.anchor] at anchored'
  exact larger.trans_eq (Option.some.inj anchored').symm

/-- A request that moves the anchor lands a stamp with the new one. -/
theorem OperatorTrace.stampLanded (trace : OperatorTrace console origin log state)
    (member : entry ∈ log) {millis : ℕ} (after : entry.after.anchor = some (millis : ℚ))
    (moved : entry.before.anchor ≠ some (millis : ℚ)) :
    ∃ audit, StampLanded entry audit ∧ audit.now.millis = millis := by
  obtain ⟨older, logged⟩ := trace.logged_of_mem member
  obtain ⟨choice, responds⟩ := logged.responds
  cases stampEffect responds with
  | kept _ same =>
      rw [OperatorState.anchor, same _ (by simp [auditAttrs])] at after
      exact absurd after moved
  | stamped audit landed =>
      have described := landed.describes.anchor
      rw [after] at described
      exact ⟨audit, landed, (Nat.cast_injective (Option.some.inj described)).symm⟩

/-- **Landed debounced actions are the window apart**, where the item is the latest arrival's. -/
theorem debouncedApart_of_inOrder (trace : OperatorTrace console origin log state)
    (order : ∀ entry ∈ log, PhaseWriteInOrder entry) : DebouncedApart log := by
  rintro newer second between first older rfl earlier later lands follows
  obtain ⟨below, -⟩ := Trace.split trace
  have latest := describesLatest_of_inOrder below fun entry member =>
    order entry (List.mem_append_right _ (List.mem_cons_of_mem _ member))
  have inside : first ∈ between ++ first :: older := List.mem_append_right _ List.mem_cons_self
  rcases latest with ⟨none, -⟩ | ⟨entry, -, newest, -, describes, largest⟩
  · exact absurd lands.stampLanded (none first inside earlier)
  · have recent := largest first inside earlier lands.stampLanded
    have apart := follows.window describes
    omega

end Runs

/-- **The anchor never goes back, the item is the latest arrival's and landed debounced actions are
the window apart, exactly where every phase write that lands is in order.** Every stamp is its
action's arrival. -/
theorem anchor_never_regresses (console : Deployment) (origin : OperatorState) (c : OperatorRoom)
    (run : OperatorRun console origin c) :
    (∀ entry ∈ c.log, ∀ audit, StampLanded entry audit → audit.now = entry.job.arrival) ∧
      ((∀ entry ∈ c.log, PhaseWriteInOrder entry) ↔
        (∀ entry ∈ c.log, AnchorGrows entry) ∧ DescribesLatest origin c.log c.state ∧
          DebouncedApart c.log) := by
  have trace := operatorTrace run
  refine ⟨fun entry member audit landed => ?_, fun order => ⟨fun entry member => ?_, ?_, ?_⟩, ?_⟩
  · obtain ⟨older, here⟩ := trace.logged_of_mem member
    obtain ⟨update, ⟨found, -⟩, stamped⟩ := landed
    exact here.own update found audit stamped
  · obtain ⟨older, here⟩ := trace.logged_of_mem member
    obtain ⟨choice, responds⟩ := here.responds
    exact anchorGrows_of_inOrder responds (order entry member)
  · exact describesLatest_of_inOrder trace order
  · exact debouncedApart_of_inOrder trace order
  · rintro ⟨grows, -, -⟩ entry member
    exact inOrder_of_anchorGrows (grows entry member)

/-! ## Operators in and out of order -/

namespace Sample

/-- The console of the samples. -/
def console : Deployment :=
  { deployment with edge := Edge.Sample.console, scheduler := Schedule.Sample.scheduler }

/-- Its stores, before any action. -/
def quiet : OperatorState := ⟨origin, "e0", "", Schedule.Sample.unscheduled.schedule, false⟩

/-- An operator takes the room down, a second into the event. -/
def takeDown : OperatorJob := .room ⟨.applyForceMaintenance "first" ⟨1000000000⟩, rfl⟩

/-- Another one posts a message. -/
def post (arrived : ℕ) : OperatorJob :=
  .room ⟨.applyMessage "soon" "second" ⟨arrived * 1000000⟩, rfl⟩

/-- A thread's next request. -/
def next (thread : ℕ) : Action OperatorJob OperatorChoice := .advance thread (.tables .commit)

/-- The phase write of a request from before the message lands after it. -/
def overtaken : List (Action OperatorJob OperatorChoice) :=
  [.start takeDown, .start (post 3000), next 0, next 1, next 1, next 0]

/-- Whether a phase write is in order. -/
def inOrder (entry : OperatorEntry) : Bool :=
  match entry.exchange.call.itemUpdate, entry.before.anchor with
  | some ⟨_, _, some audit, .phase⟩, some old => decide (old ≤ audit.now.millis)
  | _, _ => true

/-- Whether a request moves the anchor, from there to there. -/
def moves (old : Option ℕ) (new : ℕ) (entry : OperatorEntry) : Bool :=
  decide (entry.before.anchor = old.map Nat.cast) && decide (entry.after.anchor = some (new : ℚ))

theorem moves_iff {old : Option ℕ} {new : ℕ} {entry : OperatorEntry} : moves old new entry ↔
    entry.before.anchor = old.map Nat.cast ∧ entry.after.anchor = some (new : ℚ) := by
  rw [moves, Bool.and_eq_true, decide_eq_true_eq, decide_eq_true_eq]

/-- Whether a request updates the item behind the debounce. -/
def debounced (entry : OperatorEntry) : Bool :=
  entry.exchange.call.itemUpdate.any fun update => decide (update.guarded = .debounced)

/-- Whether two messages landed half a second apart. -/
def tooClose : List OperatorEntry → Bool
  | [second, _, _, first, _, _] => moves (some 1000) 3500 second && moves none 3000 first &&
      debounced second && debounced first
  | _ => false

/-- A debounced request that moves the anchor is a debounced action that landed. -/
theorem debouncedLanded_of_moves {origin state : OperatorState} {log : List OperatorEntry}
    {entry : OperatorEntry} {old : Option ℕ} {new : ℕ}
    (trace : OperatorTrace console origin log state) (member : entry ∈ log)
    (moved : moves old new entry) (other : old ≠ some new) (guarded : debounced entry) :
    ∃ audit, DebouncedLanded entry audit ∧ audit.now.millis = new := by
  obtain ⟨before, after⟩ := moves_iff.mp moved
  have changed : entry.before.anchor ≠ some (new : ℚ) := by
    rw [before]
    intro same
    obtain ⟨value, rfl, cast⟩ := Option.map_eq_some_iff.mp same
    exact other (congrArg some (Nat.cast_injective cast))
  obtain ⟨audit, ⟨update, landed, stamped⟩, arrived⟩ := trace.stampLanded member after changed
  have kind := guarded
  rw [debounced, landed.1, Option.any_some, decide_eq_true_eq] at kind
  exact ⟨audit, ⟨update, landed, stamped, kind⟩, arrived⟩

theorem not_apart {origin state : OperatorState} {log : List OperatorEntry}
    (trace : OperatorTrace console origin log state) (close : tooClose log) : ¬ DebouncedApart log := by
  unfold tooClose at close
  split at close
  · rename_i second load write first load' load''
    simp only [Bool.and_eq_true] at close
    obtain ⟨⟨⟨late, early⟩, lateGuarded⟩, earlyGuarded⟩ := close
    obtain ⟨later, lands, arrived⟩ :=
      debouncedLanded_of_moves trace (by simp) late (by decide) lateGuarded
    obtain ⟨earlier, lands', arrived'⟩ :=
      debouncedLanded_of_moves trace (by simp) early nofun earlyGuarded
    intro apart
    have window := apart [] second [load, write] first [load', load''] rfl earlier later lands' lands
    rw [arrived, arrived'] at window
    exact absurd window (by decide)
  · cases close

theorem phaseWriteInOrder_of_inOrder {entry : OperatorEntry} (checked : inOrder entry) :
    PhaseWriteInOrder entry := by
  rintro ⟨condition, clauses, _, _⟩ audit ⟨found, -⟩ rfl rfl old anchored
  rw [inOrder, found, anchored] at checked
  exact of_decide_eq_true checked

end Sample

/-- A message two seconds after the phase write leaves the anchor at its own arrival. -/
theorem anchor_never_regresses_sample : ∃ c : OperatorRoom,
    OperatorRun Sample.console Sample.quiet c ∧ c.state.anchor = some 3000 ∧
      (∀ entry ∈ c.log, AnchorGrows entry) ∧ DescribesLatest Sample.quiet c.log c.state ∧
        DebouncedApart c.log := by
  obtain ⟨c, run, good⟩ := System.exists_reaches_of_run
    (show ((operators Sample.console).run .free (.initial Sample.quiet)
      [.start Sample.takeDown, Sample.next 0, Sample.next 0, .start (Sample.post 3000),
        Sample.next 1, Sample.next 1]).any
      (fun c => decide (c.state.anchor = some 3000) && c.log.all Sample.inOrder) by
      decide +kernel)
  simp only [Bool.and_eq_true, decide_eq_true_eq, List.all_eq_true] at good
  obtain ⟨anchored, entries⟩ := good
  refine ⟨c, run, anchored, (anchor_never_regresses Sample.console Sample.quiet c run).2.mp ?_⟩
  exact fun entry member => Sample.phaseWriteInOrder_of_inOrder (entries entry member)

/-- **A phase write takes the anchor back**: it arrived at 1000 and lands after a message from 3000.
The item then describes the earlier of the two, and a message from 3500 lands as well. -/
theorem phase_write_regresses : ∃ c d : OperatorRoom,
    OperatorRun Sample.console Sample.quiet c ∧ (∃ entry ∈ c.log, ¬ AnchorGrows entry) ∧
      ¬ DescribesLatest Sample.quiet c.log c.state ∧
        OperatorRun Sample.console Sample.quiet d ∧ ¬ DebouncedApart d.log := by
  obtain ⟨c, run, good⟩ := System.exists_reaches_of_run
    (show ((operators Sample.console).run .free (.initial Sample.quiet) Sample.overtaken).any
      (fun c => decide (c.state.anchor = some ((1000 : ℕ) : ℚ)) &&
        c.log.any (Sample.moves (some 3000) 1000) && c.log.any (Sample.moves none 3000)) by
      decide +kernel)
  obtain ⟨d, run', good'⟩ := System.exists_reaches_of_run
    (show ((operators Sample.console).run .free (.initial Sample.quiet)
      (Sample.overtaken ++ [.start (Sample.post 3500), Sample.next 2, Sample.next 2])).any
      (fun d => Sample.tooClose d.log) by
      decide +kernel)
  simp only [Bool.and_eq_true, decide_eq_true_eq, List.any_eq_true, Sample.moves_iff] at good
  obtain ⟨⟨anchored, last, member, before, after⟩, first, member', before', after'⟩ := good
  refine ⟨c, d, run, ⟨last, member, fun grows => ?_⟩, fun latest => ?_, run', ?_⟩
  · obtain ⟨new, found, larger⟩ := grows _ before
    obtain rfl := Option.some.inj (after.symm.trans found)
    exact absurd larger (by norm_num)
  · obtain ⟨audit, landed, arrived⟩ :=
      (operatorTrace run).stampLanded member' after' (by rw [before']; exact nofun)
    rcases latest with ⟨none, -⟩ | ⟨_, -, newest, -, describes, largest⟩
    · exact none first member' audit landed
    · have recent := largest first member' audit landed
      have stale : newest.now.millis = 1000 :=
        Nat.cast_injective (Option.some.inj (describes.anchor.symm.trans anchored))
      rw [arrived, stale] at recent
      exact absurd recent (by decide)
  · exact Sample.not_apart (operatorTrace run') good'

end WaitingRoom
