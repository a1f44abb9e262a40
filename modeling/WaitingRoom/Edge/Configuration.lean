import WaitingRoom.Edge.Conformance

/-!
# The edge's configuration loses no update

An `ETag` is the store's once, so while it is, the document is the same one
(`EdgeTrace.current`). A put that succeeds therefore carries the document that is current, with one
field set, although the read it was made from described the `ETag` and fetched the document in two
steps (`edge_loses_no_update`).
-/

set_option autoImplicit false

namespace WaitingRoom.Edge

open Dynamo Concurrency

/-- A configuration of the console's actions. -/
abbrev EdgeRoom := Config Stores EdgeState EdgeJob (Except ApplyError Unit)

/-- A logged request. -/
abbrev EdgeEntry := Entry Stores EdgeState EdgeJob

/-- A policy on the steps of the actions. -/
abbrev EdgePolicy := Policy Stores EdgeState EdgeJob EdgeChoice

/-- A run of the actions. -/
abbrev EdgeRun (console : Console) (origin : EdgeState) (c : EdgeRoom) : Prop :=
  (edge console).Reaches .free (.initial origin) c

/-- The log of a run, in which every request was legal. -/
abbrev EdgeTrace (console : Console) (origin : EdgeState) (log : List EdgeEntry)
    (state : EdgeState) : Prop :=
  Trace (edge console) .free (edgeLegal console) origin log state

/-- A put that the store took: it gave the store another `ETag`. -/
def PutLanded (entry : EdgeEntry) : Prop :=
  ∃ etag value, entry.exchange.call = .putKey etag value ∧ entry.after.etag ≠ entry.before.etag

/-- One logged request, and the log below it. -/
structure EdgeLogged (console : Console) (origin : EdgeState) (older : List EdgeEntry)
    (entry : EdgeEntry) : Prop where
  earlier : EdgeTrace console origin older entry.before
  lawful : edgeLegal console entry.job (history older entry.thread) entry.exchange.call
  responds : ∃ choice, respondEdge entry.exchange.call choice (past older) entry.before =
    some (entry.exchange.answer, entry.after)

section Configuration

variable {console : Console} {origin state : EdgeState} {log newer older : List EdgeEntry}
  {entry : EdgeEntry}

theorem EdgeRun.trace {c : EdgeRoom} (run : EdgeRun console origin c) :
    EdgeTrace console origin c.log c.state :=
  System.Reaches.trace run edge_obeys

theorem EdgeTrace.logged_head (trace : EdgeTrace console origin (entry :: older) state) :
    EdgeLogged console origin older entry ∧ entry.after = state := by
  cases trace with
  | cons earlier lawful allowed responds => exact ⟨⟨earlier, lawful, _, responds⟩, rfl⟩

theorem EdgeTrace.logged (trace : EdgeTrace console origin (newer ++ entry :: older) state) :
    EdgeLogged console origin older entry := by
  obtain ⟨earlier, lawful, choice, -, responds⟩ := Trace.split trace
  exact ⟨earlier, lawful, choice, responds⟩

theorem EdgeTrace.logged_of_mem (trace : EdgeTrace console origin log state) (member : entry ∈ log) :
    ∃ newer older, log = newer ++ entry :: older ∧ EdgeLogged console origin older entry := by
  obtain ⟨newer, older, rfl⟩ := List.append_of_mem member
  exact ⟨newer, older, rfl, trace.logged⟩

/-! ## What one request does -/

/-- A request leaves the stores alone or is performed, under an `ETag` never issued. -/
theorem respondEdge_state {call : EdgeCall} {choice : EdgeChoice} {past : List EdgeState}
    {before after : EdgeState} {answer : Except StoreError (EdgePayload call)}
    (responds : respondEdge call choice past before = some (answer, after)) :
    after = before ∨ ∃ fresh, NeverIssued fresh past before ∧
      after = (performEdge fresh call before).2 := by
  cases choice with
  | commit fresh =>
      simp only [respondEdge] at responds
      split_ifs at responds with unused
      exact .inr ⟨fresh, unused, (congrArg Prod.snd (Option.some.inj responds)).symm⟩
  | lost error => exact .inl (congrArg Prod.snd (Option.some.inj responds)).symm
  | landed fresh error =>
      simp only [respondEdge] at responds
      split_ifs at responds with unused
      exact .inr ⟨fresh, unused, (congrArg Prod.snd (Option.some.inj responds)).symm⟩
  | stale age =>
      cases call with
      | getItem =>
          obtain ⟨old, -, same⟩ := Option.map_eq_some_iff.mp responds
          exact .inl (congrArg Prod.snd same).symm
      | _ => cases responds

/-- **What a request does to the document**: nothing, unless it is a put that the store took. -/
theorem EdgeLogged.document_cases (logged : EdgeLogged console origin older entry) :
    (entry.after.etag = entry.before.etag ∧ entry.after.value = entry.before.value) ∨
      ∃ etag value, entry.exchange.call = .putKey etag value ∧ entry.before.etag = etag ∧
        entry.after.value = value ∧ entry.after.counters = entry.before.counters ∧
        NeverIssued entry.after.etag (past older) entry.before := by
  obtain ⟨choice, responds⟩ := logged.responds
  rcases respondEdge_state responds with same | ⟨fresh, unused, after⟩
  · rw [same]
    exact .inl ⟨rfl, rfl⟩
  generalize entry.exchange.call = call at after
  cases call with
  | getItem | describe | getKey =>
      rw [after]
      exact .inl ⟨rfl, rfl⟩
  | updateItem update =>
      rw [after, performEdge]
      split <;> exact .inl ⟨rfl, rfl⟩
  | putKey etag value =>
      rw [after, performEdge]
      split_ifs with current
      · exact .inr ⟨etag, value, rfl, current.symm, rfl, rfl, unused⟩
      · exact .inl ⟨rfl, rfl⟩

/-- A put that the store took. -/
theorem EdgeLogged.landed (logged : EdgeLogged console origin older entry) (put : PutLanded entry) :
    ∃ etag value, entry.exchange.call = .putKey etag value ∧ entry.before.etag = etag ∧
      entry.after.value = value := by
  rcases logged.document_cases with ⟨same, -⟩ | ⟨etag, value, call, current, written, -, -⟩
  · obtain ⟨_, _, -, changed⟩ := put
    exact absurd same changed
  · exact ⟨etag, value, call, current, written⟩

/-- A put that was answered without an error was taken. -/
theorem EdgeLogged.landed_of_answer (logged : EdgeLogged console origin older entry)
    {etag value : String} (same : entry.exchange = edgeAnswered (.putKey etag value) (.ok ())) :
    PutLanded entry ∧ entry.after.value = value := by
  obtain ⟨choice, responds⟩ := logged.responds
  rw [same] at responds
  cases choice with
  | commit fresh =>
      simp only [respondEdge, performEdge] at responds
      split_ifs at responds with unused current
      · have after : (⟨fresh, value, entry.before.counters⟩ : EdgeState) = entry.after :=
          congrArg Prod.snd (Option.some.inj responds)
        refine ⟨⟨etag, value, by rw [same], ?_⟩, ?_⟩
        · rw [← after]
          exact (unused _ List.mem_cons_self).symm
        · rw [← after]
      · cases congrArg Prod.fst (Option.some.inj responds)
  | lost error => cases congrArg Prod.fst (Option.some.inj responds)
  | landed fresh error =>
      simp only [respondEdge] at responds
      split_ifs at responds
      cases congrArg Prod.fst (Option.some.inj responds)
  | stale age => cases responds

/-- What a description and a fetch are answered with. -/
theorem EdgeLogged.read (logged : EdgeLogged console origin older entry) {text : String} :
    (entry.exchange = edgeAnswered .describe (.ok text) → entry.before.etag = text) ∧
      (entry.exchange = edgeAnswered .getKey (.ok text) → entry.before.value = text) := by
  obtain ⟨choice, responds⟩ := logged.responds
  constructor
  all_goals
    intro same
    rw [same] at responds
    cases choice with
    | commit fresh =>
        simp only [respondEdge, performEdge] at responds
        split_ifs at responds
        exact Except.ok.inj (congrArg Prod.fst (Option.some.inj responds))
    | lost error => cases congrArg Prod.fst (Option.some.inj responds)
    | landed fresh error =>
        simp only [respondEdge] at responds
        split_ifs at responds
        cases congrArg Prod.fst (Option.some.inj responds)
    | stale age => cases responds

/-! ## Versions -/

/-- **An `ETag` is the store's once**: since it was last read, the document is the same one. -/
theorem EdgeTrace.current (trace : EdgeTrace console origin log state) :
    ∀ newer entry older, log = newer ++ entry :: older → entry.before.etag = state.etag →
      entry.before.value = state.value ∧
        ∀ later ∈ newer, later.before.etag = state.etag ∧ later.before.value = state.value := by
  induction log generalizing state with
  | nil =>
      intro newer entry older whole
      simp at whole
  | cons last log ih =>
      intro newer entry older whole same
      obtain ⟨logged, rfl⟩ := trace.logged_head
      have member : entry ∈ last :: log := by
        rw [whole]
        simp
      rcases logged.document_cases with ⟨etag, value⟩ | ⟨_, _, -, -, -, -, unused⟩
      · rw [etag] at same
        rw [etag, value]
        cases newer with
        | nil =>
            simp only [List.nil_append, List.cons.injEq] at whole
            obtain ⟨rfl, -⟩ := whole
            exact ⟨rfl, fun later none => absurd none List.not_mem_nil⟩
        | cons first newer =>
            simp only [List.cons_append, List.cons.injEq] at whole
            obtain ⟨rfl, rest⟩ := whole
            obtain ⟨value, between⟩ := ih logged.earlier newer entry older rest same
            refine ⟨value, fun later found => ?_⟩
            rcases List.mem_cons.mp found with rfl | found
            · exact ⟨rfl, rfl⟩
            · exact between later found
      · -- the new `ETag` was never the store's before
        refine absurd same (unused _ ?_)
        rcases List.mem_cons.mp member with rfl | earlier
        · exact List.mem_cons_self
        · exact List.mem_cons_of_mem _ (Trace.mem_past.mpr ⟨entry, earlier, rfl⟩)

/-! ## Puts -/

/-- A put replaced a document by the same one with its action's own field set. -/
def UpdatesOwnField (console : Console) (entry : EdgeEntry) : Prop :=
  ∃ old new, decodeGateConfig console.text entry.before.value = some old ∧
    decodeGateConfig console.text entry.after.value = some new ∧
    entry.job.ChangesOnly old new ∧ entry.job.Requested new

/-- **A put that the store takes changes its action's own field of the current document.** -/
theorem EdgeLogged.updates (logged : EdgeLogged console origin older entry)
    (roundTrips : console.text.RoundTrips) (put : PutLanded entry) :
    UpdatesOwnField console entry := by
  obtain ⟨etag, value, call, current, written⟩ := logged.landed put
  have lawful := logged.lawful
  rw [call] at lawful
  obtain ⟨text, old, new, before, reads, decoded, encoded, changes, requested⟩ := lawful
  -- the fetch is above the description in the log
  obtain ⟨newerLog, fetch, olderLog, whole, -, fetched, -, rest⟩ :=
    exists_split_of_history (reads.trans (List.nil_append _).symm)
  obtain ⟨between, describe, oldest, split, -, described, -, -⟩ :=
    exists_split_of_history (rest.trans (List.nil_append _).symm)
  subst split
  have describeLogged : EdgeLogged console origin oldest describe := by
    have trace := logged.earlier
    rw [whole, ← List.cons_append, ← List.append_assoc] at trace
    exact trace.logged
  have fetchLogged : EdgeLogged console origin (between ++ describe :: oldest) fetch := by
    have trace := logged.earlier
    rw [whole] at trace
    exact trace.logged
  have version : describe.before.etag = entry.before.etag := by
    rw [describeLogged.read.1 described, current]
  have same := (logged.earlier.current (newerLog ++ fetch :: between) describe oldest
    (by rw [whole]; simp) version).2 fetch (by simp)
  have document : entry.before.value = text := by rw [← same.2, fetchLogged.read.2 fetched]
  refine ⟨old, new, ?_, ?_, changes, requested⟩
  · rw [document, decoded]
  · rw [written, decode_of_encode roundTrips (EdgeJob.fits_of_changes (decode_fits decoded) changes requested)
      encoded]

/-- **The edge's configuration loses no update**: a put that the store takes changes the one field
of its action in the document that is then current. A read-modify-write that returns a document has
put it, and so has an action that returns. -/
theorem edge_loses_no_update (console : Console) (roundTrips : console.text.RoundTrips)
    (origin : EdgeState) (c : EdgeRoom) (run : EdgeRun console origin c) :
    (∀ entry ∈ c.log, PutLanded entry → UpdatesOwnField console entry) ∧
    (∀ thread job, c.jobs[thread]? = some job →
      (∀ minutes actor now, job = .failOpen minutes actor now → parseMinutes minutes ≠ none) →
      ∀ start later newer config, history c.log thread = newer ++ later →
        Returns (edgeReadModifyWrite console.text job.edit) start later (.ok config) →
        ∃ entry ∈ c.log, entry.thread = thread ∧ entry.job = job ∧ PutLanded entry ∧
          UpdatesOwnField console entry ∧
          decodeGateConfig console.text entry.after.value = some config ∧ job.Requested config) ∧
    ∀ thread job, c.result thread = some (job, .ok ()) →
      ∃ entry ∈ c.log, entry.thread = thread ∧ entry.job = job ∧ PutLanded entry ∧
        UpdatesOwnField console entry := by
  have updates : ∀ entry ∈ c.log, PutLanded entry → UpdatesOwnField console entry := by
    intro entry member put
    obtain ⟨newer, older, -, logged⟩ := run.trace.logged_of_mem member
    exact logged.updates roundTrips put
  have owner : ∀ entry ∈ c.log, ∀ thread job, entry.thread = thread → c.jobs[thread]? = some job →
      entry.job = job := by
    rintro entry member thread job rfl mine
    exact Option.some.inj ((System.Reaches.job_of_entry run member).symm.trans mine)
  refine ⟨updates, ?_, ?_⟩
  · intro thread job mine valid start later newer config whole returned
    obtain ⟨etag, value, older, rfl, encoded, fits, requested⟩ :=
      (edgeReadModifyWrite_obeys (edit_edits valid)).returned returned
    obtain ⟨newerLog, entry, olderLog, split, thread_eq, exchange, -, -⟩ :=
      exists_split_of_history whole
    have member : entry ∈ c.log := by
      rw [split]
      simp
    obtain ⟨_, _, -, logged⟩ := run.trace.logged_of_mem member
    obtain ⟨put, written⟩ := logged.landed_of_answer exchange
    refine ⟨entry, member, thread_eq, owner entry member thread job thread_eq mine, put,
      updates entry member put, ?_, requested⟩
    rw [written, decode_of_encode roundTrips fits encoded]
  · intro thread job returned
    have pending := Config.result_eq_some.mp returned
    have report := (run.obeys edge_obeys).1 thread job _ pending
    obtain ⟨exchange, found, etag, value, same⟩ := obeys_done.mp report rfl
    obtain ⟨entry, member, thread_eq, rfl⟩ := mem_history.mp found
    obtain ⟨_, _, -, logged⟩ := run.trace.logged_of_mem member
    obtain ⟨put, -⟩ := logged.landed_of_answer same
    have mine : c.jobs[thread]? = some job := by
      simp [Config.jobs, pending]
    exact ⟨entry, member, thread_eq, owner entry member thread job thread_eq mine, put,
      updates entry member put⟩

end Configuration

/-! ## A sample console -/

namespace Sample

/-- The documents of the sample, as text. -/
def documents : List (String × GateConfig) :=
  [("\x7b\"v\":1,\"s\":0,\"f\":0,\"r\":[]\x7d", ⟨1, 0, 0, [], false⟩),
    ("\x7b\"v\":1,\"s\":0,\"f\":3600,\"r\":[]\x7d", ⟨1, 0, 3600, [], false⟩),
    ("\x7b\"v\":1,\"s\":0,\"f\":400,\"r\":[]\x7d", ⟨1, 0, 400, [], false⟩),
    ("\x7b\"v\":1,\"s\":0,\"f\":0,\"r\":[],\"b\":true\x7d", ⟨1, 0, 0, [], true⟩),
    ("\x7b\"v\":1,\"s\":0,\"f\":3600,\"r\":[],\"b\":true\x7d", ⟨1, 0, 3600, [], true⟩)]

/-- The text of a document outside the sample, over the store's ceiling. -/
def otherText : String := String.ofList (List.replicate 951 'x')

/-- The JSON of the sample's documents. -/
def text : JsonText where
  print json := (((GateConfig.ofJson json).bind fun config =>
    documents.find? fun entry => entry.2 = config).map Prod.fst).getD otherText
  parse value := (documents.find? fun entry => entry.1 = value).map fun entry => entry.2.toJson

theorem otherText_large : ¬ (utf8 otherText).length ≤ maxConfigBytes := by
  have bytes : ∀ n, (utf8 (String.ofList (List.replicate n 'x'))).length = n := by
    intro n
    have single : 'x'.utf8Size = 1 := by decide
    simp [utf8, List.length_flatMap, single]
  have long : (utf8 otherText).length = 951 := bytes 951
  rw [long]
  exact Nat.not_le.mpr (Nat.lt_succ_self 950)

theorem parse_listed : ∀ entry ∈ documents, text.parse entry.1 = some entry.2.toJson := by
  intro entry member
  simp only [documents, List.mem_cons, List.not_mem_nil, or_false] at member
  rcases member with rfl | rfl | rfl | rfl | rfl <;> rfl

theorem text_roundTrips : text.RoundTrips := by
  intro config small
  have printed : text.print config.toJson = (((GateConfig.ofJson config.toJson).bind fun config =>
      documents.find? fun entry => entry.2 = config).map Prod.fst).getD otherText := rfl
  cases read : GateConfig.ofJson config.toJson with
  | none =>
      rw [printed, read, Option.bind_none, Option.map_none, Option.getD_none] at small
      exact absurd small otherText_large
  | some other =>
      obtain rfl := GateConfig.ofJson_toJson_unique read
      rw [read, Option.bind_some] at printed
      cases found : documents.find? fun entry => entry.2 = other with
      | none =>
          rw [printed, found, Option.map_none, Option.getD_none] at small
          exact absurd small otherText_large
      | some entry =>
          have same := List.find?_some found
          rw [decide_eq_true_eq] at same
          rw [printed, found, Option.map_some, Option.getD_some, ← same]
          exact parse_listed entry (List.mem_of_find?_eq_some found)

/-- The console of the sample. -/
def console : Console := ⟨text, fun _ => ""⟩

/-- A gate whose fail-open is engaged until 3600, as the item says. -/
def engaged : EdgeState :=
  ⟨"e0", "\x7b\"v\":1,\"s\":0,\"f\":3600,\"r\":[]\x7d",
    some (Item.empty.put "fail_open_until" (.N 3600))⟩

/-- A thread's next calls, none of which goes wrong. -/
def commits (thread : ℕ) (fresh : List String) : List (Action EdgeJob EdgeChoice) :=
  fresh.map fun etag => .advance thread (.commit etag)

end Sample

/-- One operator clears a fail-open between another's description and fetch. -/
theorem edge_loses_no_update_sample : ∃ c : EdgeRoom,
    EdgeRun Sample.console Sample.engaged c ∧
    (∃ entry ∈ c.log, entry.thread = 0 ∧ PutLanded entry ∧
      UpdatesOwnField Sample.console entry) ∧
    decodeGateConfig Sample.text c.state.value = some ⟨1, 0, 0, [], true⟩ := by
  obtain ⟨c, run, good⟩ := System.exists_reaches_of_run
    (show ((edge Sample.console).run .free (.initial Sample.engaged)
      ([.start (.ipBinding true "operator" ⟨100000000000⟩), .start (.recover "other" ⟨100000000000⟩)] ++
        Sample.commits 0 ["a", "a"] ++ Sample.commits 1 ["a", "a", "a", "a", "e1"] ++
        Sample.commits 0 ["a", "a", "a", "a", "e2", "a"])).any
      (fun c => decide ((c.result 0).map Prod.snd = some (.ok ())) &&
        decide (decodeGateConfig Sample.text c.state.value = some ⟨1, 0, 0, [], true⟩)) by
      decide +kernel)
  simp only [Bool.and_eq_true, decide_eq_true_eq] at good
  obtain ⟨returned, document⟩ := good
  obtain ⟨⟨job, outcome⟩, result, rfl⟩ := Option.map_eq_some_iff.mp returned
  obtain ⟨entry, member, thread, owner, put, updates⟩ :=
    (edge_loses_no_update Sample.console Sample.text_roundTrips Sample.engaged c run).2.2 0 job result
  exact ⟨c, run, ⟨entry, member, thread, put, updates⟩, document⟩

end WaitingRoom.Edge
