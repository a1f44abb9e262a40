import WaitingRoom.Edge.Matching

/-!
# No request talks its way past the gate

What the gate's decision throws lets a request pass, so nothing a visitor sends may make it throw
(`attempt_total`). A covered request outside both windows then reaches the origin only with a
credential that opens the gate (`gate_admits_only_sessions`), and the marks the origin sees are the
gate's own.
-/

set_option autoImplicit false

namespace WaitingRoom.Edge

open Text

/-! ## Nothing throws -/

/-- Units that encode a text. -/
def Encodes (units : Units) : Prop := ∃ text, units = utf16 text

theorem encodes_utf16 (text : String) : Encodes (utf16 text) := ⟨text, rfl⟩

theorem Encodes.append {first second : Units} (head : Encodes first) (tail : Encodes second) :
    Encodes (first ++ second) := by
  obtain ⟨text, rfl⟩ := head
  obtain ⟨other, rfl⟩ := tail
  exact ⟨text ++ other, (utf16_append text other).symm⟩

theorem Encodes.intercalate {separator : Units} (between : Encodes separator) {parts : List Units}
    (each : ∀ part ∈ parts, Encodes part) : Encodes (List.intercalate separator parts) := by
  induction parts with
  | nil => exact ⟨"", rfl⟩
  | cons part parts ih =>
      have head := each part List.mem_cons_self
      have tail := ih fun later member => each later (List.mem_cons_of_mem part member)
      cases parts with
      | nil => simpa [List.intercalate] using head
      | cons next parts =>
          have whole : List.intercalate separator (part :: next :: parts) =
              part ++ (separator ++ List.intercalate separator (next :: parts)) := by
            simp [List.intercalate]
          rw [whole]
          exact head.append (between.append tail)

theorem Encodes.encodeURIComponent {units : Units} (encodes : Encodes units) :
    ∃ encoded, Edge.encodeURIComponent units = .ok encoded ∧ Encodes encoded := by
  obtain ⟨text, rfl⟩ := encodes
  exact ⟨_, encodeURIComponent_utf16 text, encodes_utf16 _⟩

/-- The fields of a request are texts. -/
def TextFields (fields : Fields) : Prop :=
  ∀ field ∈ fields, Encodes field.1 ∧ ∃ value, field.2.value = some value ∧ Encodes value

theorem textFields_fieldsOf (entries : List (String × String)) : TextFields (fieldsOf entries) := by
  intro field member
  obtain ⟨entry, -, rfl⟩ := List.mem_map.mp member
  exact ⟨encodes_utf16 _, _, rfl, encodes_utf16 _⟩

theorem TextFields.delete {fields : Fields} (texts : TextFields fields) (key : String) :
    TextFields (deleteField fields key) :=
  fun field member => texts field (List.mem_of_mem_filter member)

/-- What is there under its own name has a value. -/
theorem TextFields.ownProperty {fields : Fields} (texts : TextFields fields) {key : Units} {field : Field}
    (found : Edge.ownProperty fields key = some field) :
    ∃ value, field.value = some value ∧ Encodes value := by
  obtain ⟨entry, at_, rfl⟩ := Option.map_eq_some_iff.mp found
  exact (texts entry (List.mem_of_find?_eq_some at_)).2

/-- A name no object inherits is there under its own name. -/
theorem property_eq {fields : Fields} {name : String} (own : name ∉ objectPrototype) :
    property fields (utf16 name) = ownProperty fields (utf16 name) := by
  have other : utf16 name ∉ objectPrototype.map utf16 := by
    rintro member
    obtain ⟨inherited, found, same⟩ := List.mem_map.mp member
    exact own (utf16_injective same ▸ found)
  rw [property, if_neg other]
  cases ownProperty fields (utf16 name) <;> rfl

/-- A rule as the console writes it is evaluated without a throw. -/
theorem matches_total (gate : Gate) (rule : ProtectionRule) (request : Request) :
    ∃ covered, gate.matches rule.wire request = .ok covered := by
  cases rule with
  | pathPrefix path => exact ⟨_, matches_path gate path request⟩
  | header name value => exact ⟨_, matches_header gate name value request⟩
  | cookie name => exact ⟨_, matches_cookie gate name request⟩
  | userAgent needle => exact ⟨_, matches_userAgent gate needle request⟩

/-- A ruleset covers a request exactly when one of its rules does. -/
theorem protectedByRule_eq (gate : Gate) (rules : List ProtectionRule) (request : Request) :
    ∃ covered, gate.protectedByRule request (rules.map ProtectionRule.wire) = .ok covered ∧
      (covered = true ↔ ∃ rule ∈ rules, gate.matches rule.wire request = .ok true) := by
  induction rules with
  | nil => exact ⟨false, rfl, by simp⟩
  | cons rule rules ih =>
      obtain ⟨covered, first⟩ := matches_total gate rule request
      obtain ⟨later, rest, some⟩ := ih
      rw [List.map_cons, Gate.protectedByRule, first]
      cases covered with
      | true => exact ⟨true, rfl, by simp [first]⟩
      | false => exact ⟨later, rest, by simp [first, some]⟩

/-- The parameters of a redirect are texts. -/
theorem parameters_total {pairs : List (Units × Units)}
    (texts : ∀ pair ∈ pairs, Encodes pair.1 ∧ Encodes pair.2) :
    ∃ parts, (pairs.mapM fun (name, value) => do
        return (← encodeURIComponent name) ++ utf16 "=" ++ (← encodeURIComponent value)) =
          (.ok parts : Except JsError (List Units)) ∧ ∀ part ∈ parts, Encodes part := by
  induction pairs with
  | nil => exact ⟨[], rfl, fun part none => absurd none List.not_mem_nil⟩
  | cons pair pairs ih =>
      obtain ⟨parts, rest, each⟩ :=
        ih fun later member => texts later (List.mem_cons_of_mem pair member)
      obtain ⟨name, value⟩ := pair
      have nameText : Encodes name := (texts (name, value) List.mem_cons_self).1
      have valueText : Encodes value := (texts (name, value) List.mem_cons_self).2
      obtain ⟨encodedName, nameDone, nameOut⟩ := nameText.encodeURIComponent
      obtain ⟨encodedValue, valueDone, valueOut⟩ := valueText.encodeURIComponent
      refine ⟨(encodedName ++ utf16 "=" ++ encodedValue) :: parts, ?_, ?_⟩
      · rw [List.mapM_cons, rest]
        simp only [nameDone, valueDone, bind, Except.bind]
        rfl
      · intro part member
        rcases List.mem_cons.mp member with rfl | later
        · exact (nameOut.append (encodes_utf16 "=")).append valueOut
        · exact each part later

/-- The query of a redirect is a text. -/
theorem queryString_total {fields : Fields} (texts : TextFields fields) :
    ∃ query, Gate.queryString fields = .ok query ∧ Encodes query := by
  have pairs : ∀ pair ∈ fields.filterMap (fun entry => entry.2.value.map (entry.1, ·)),
      Encodes pair.1 ∧ Encodes pair.2 := by
    intro pair member
    obtain ⟨entry, found, same⟩ := List.mem_filterMap.mp member
    obtain ⟨value, held, rfl⟩ := Option.map_eq_some_iff.mp same
    obtain ⟨name, other, found', text⟩ := texts entry found
    obtain rfl := Option.some.inj (held.symm.trans found')
    exact ⟨name, text⟩
  obtain ⟨parts, done, each⟩ := parameters_total pairs
  refine ⟨if parts = [] then [] else utf16 "?" ++ List.intercalate (utf16 "&") parts, ?_, ?_⟩
  · unfold Gate.queryString
    rw [done]
    rfl
  · split_ifs
    · exact encodes_utf16 ""
    · exact (encodes_utf16 "?").append ((encodes_utf16 "&").intercalate each)

theorem wantsHtml_total {request : Request} (texts : TextFields request.headers) :
    ∃ html, Gate.wantsHtml request = .ok html := by
  have names : "sec-fetch-mode" ∉ objectPrototype ∧ "accept" ∉ objectPrototype := by decide +kernel
  unfold Gate.wantsHtml
  rw [property_eq names.1, property_eq names.2]
  simp only
  split_ifs
  · exact ⟨_, rfl⟩
  · cases found : ownProperty request.headers (utf16 "accept") with
    | none => exact ⟨_, rfl⟩
    | some accept =>
        obtain ⟨value, same, -⟩ := texts.ownProperty found
        simp only [same]
        exact ⟨_, rfl⟩

/-- **A refusal is a response.** -/
theorem refuse_total (gate : Gate) {request : Request} (uri : Encodes request.uri)
    (headers : TextFields request.headers) (query : TextFields request.querystring)
    (reason : String) : ∃ response, gate.refuse request reason = .ok (.respond response) := by
  obtain ⟨html, accepts⟩ := wantsHtml_total headers
  obtain ⟨destination, built, encodes⟩ := queryString_total query
  obtain ⟨next, encoded, -⟩ := (uri.append encodes).encodeURIComponent
  unfold Gate.refuse
  simp only [accepts, built, encoded, bind, Except.bind]
  cases html with
  | false => exact ⟨_, rfl⟩
  | true => exact ⟨_, rfl⟩

/-! ## Credentials -/

theorem strictEquals_string {value : JsValue} {text : Units} :
    value.strictEquals (.string text) = true ↔ value = .string text := by
  cases value <;> simp [JsValue.strictEquals]

/-- Only an object has a property. -/
theorem truthy_of_member {value : JsValue} {name : String} (there : value.member name ≠ .undefined) :
    value.truthy = true := by
  cases value with
  | object members => rfl
  | _ => exact absurd rfl there

/-- **What the gate verifies**: the third part is the keyed hash of the first two. -/
theorem verify_eq_some {gate : Gate} {credential secret : Units} {claims : Claims} :
    gate.verify credential secret = some claims ↔ ∃ first second third,
      credential.splitOn 46 = [first, second, third] ∧ Gate.isBase64urlText second ∧
        Gate.isBase64urlText third ∧
        (gate.decodeJson first).member "alg" = .string (utf16 "HS256") ∧
        gate.digest (gate.derive secret "vwr/jws/session/v1") (first ++ [46] ++ second) = third ∧
        (gate.decodeJson second).member "aud" = .string claims.eventId ∧
        (gate.decodeJson second).member "exp" = .number claims.expiresAt ∧
        (gate.decodeJson second).member "cip" = claims.ip := by
  constructor
  · intro verified
    unfold Gate.verify at verified
    split at verified
    · next first second third parts =>
        simp only at verified
        split_ifs at verified with text header mac payload
        split at verified
        · next aud exp audience expiry =>
            obtain rfl := Option.some.inj verified
            rw [not_or, not_not, not_not, strictEquals_string] at header
            rw [Bool.and_eq_true] at text
            exact ⟨first, second, third, parts, text.1, text.2, header.2, of_decide_eq_true mac,
              audience, expiry, rfl⟩
        · cases verified
    · cases verified
  · rintro ⟨first, second, third, parts, text, text', alg, mac, audience, expiry, ip⟩
    have header : (gate.decodeJson first).truthy = true :=
      truthy_of_member (by rw [alg]; exact nofun)
    have payload : (gate.decodeJson second).truthy = true :=
      truthy_of_member (by rw [audience]; exact nofun)
    have equal : Gate.macEquals third third = true := decide_eq_true rfl
    unfold Gate.verify
    rw [parts]
    simp only [text, text', header, payload, alg, mac, equal, strictEquals_string.mpr, audience,
      expiry, ip, Bool.and_self, not_true, or_self, if_false]

/-- A credential that opens the gate: a compact signature under the derived key, by the one
algorithm, for this event, not expired, and while addresses are bound for the viewer's. -/
def Gate.Opens (gate : Gate) (cfg : Document) (secret : Units) (now : ℕ) (ip credential : Units) :
    Prop :=
  ∃ first second third exp, credential.splitOn 46 = [first, second, third] ∧
    third = gate.digest (gate.derive secret "vwr/jws/session/v1") (first ++ [46] ++ second) ∧
    (gate.decodeJson first).member "alg" = .string (utf16 "HS256") ∧
    (gate.decodeJson second).member "aud" = .string (utf16 gate.eventId) ∧
    (gate.decodeJson second).member "exp" = .number exp ∧ ¬ exp.le (.finite now) ∧
    (cfg.b → ((gate.decodeJson second).member "cip").strictEquals (gate.ipTag secret ip))

/-! ## The decision -/

section Decision

variable {gate : Gate} {cfg : Document} {secret ip : Units} {now : ℕ} {request : Request}

/-- A covered request outside both windows is decided by its session. -/
theorem attempt_covered {kvs : Kvs} (config : kvs.config = .ok cfg) (version : cfg.v = .finite 1)
    (covered : gate.protectedByRule request cfg.r = .ok true)
    (enforced : Gate.windowOpen cfg.s now = false) (closed : Gate.windowOpen cfg.f now = false) :
    gate.attempt kvs now ip request = gate.checkSession kvs cfg.b now ip request := by
  unfold Gate.attempt
  simp only [config, bind, Except.bind, version, ne_eq, not_true, if_false, covered, enforced, closed,
    Bool.false_eq_true]

/-- A session is read off the cookie, and its checks come in the source's order. -/
theorem checkSession_verified {kvs : Kvs} {bound : Bool} {credential : Units}
    (key : kvs.secret = .ok secret)
    (cookie : ownProperty request.cookies (utf16 gate.sessionCookie) = some ⟨some credential⟩) :
    gate.checkSession kvs bound now ip request =
      match gate.verify credential secret with
      | none => gate.refuse request "signature"
      | some session =>
          if session.eventId ≠ utf16 gate.eventId then gate.refuse request "event"
          else if session.expiresAt.le (.finite now) then gate.refuse request "expired"
          else if bound && !session.ip.strictEquals (gate.ipTag secret ip) then
            gate.refuse request "ip"
          else .ok (.origin request) := by
  rw [Gate.checkSession, property, cookie, key]
  rfl

/-- A refusal, or the request itself with a credential that opens the gate. -/
def Gate.Decides (gate : Gate) (cfg : Document) (secret : Units) (now : ℕ) (ip : Units)
    (request : Request) (outcome : Outcome) : Prop :=
  (∃ response, outcome = .respond response) ∨
    outcome = .origin request ∧
      ∃ credential, ownProperty request.cookies (utf16 gate.sessionCookie) =
        some ⟨some credential⟩ ∧ gate.Opens cfg secret now ip credential

/-- The parts of a request that a refusal reads. -/
structure Request.Texts (request : Request) : Prop where
  uri : Encodes request.uri
  headers : TextFields request.headers
  cookies : TextFields request.cookies
  querystring : TextFields request.querystring

/-- What a viewer sends is texts, also without the marks. -/
theorem texts_seen (sent : ViewerRequest) : (Gate.stripSpoofableHeaders sent.toJs).Texts :=
  ⟨encodes_utf16 sent.uri, ((textFields_fieldsOf sent.headers).delete _).delete _,
    textFields_fieldsOf sent.cookies, textFields_fieldsOf sent.querystring⟩

theorem refuse_decides (texts : request.Texts) (reason : String) :
    ∃ outcome, gate.refuse request reason = .ok outcome ∧
      gate.Decides cfg secret now ip request outcome := by
  obtain ⟨response, done⟩ :=
    refuse_total gate texts.uri texts.headers texts.querystring reason
  exact ⟨_, done, .inl ⟨response, rfl⟩⟩

/-- **A covered request outside both windows is refused or has a credential.** -/
theorem attempt_decides (own : gate.sessionCookie ∉ objectPrototype) (version : cfg.v = .finite 1)
    (covered : gate.protectedByRule request cfg.r = .ok true)
    (enforced : Gate.windowOpen cfg.s now = false) (closed : Gate.windowOpen cfg.f now = false)
    (texts : request.Texts) :
    ∃ outcome, gate.attempt ⟨.ok cfg, .ok secret⟩ now ip request = .ok outcome ∧
      gate.Decides cfg secret now ip request outcome := by
  rw [attempt_covered rfl version covered enforced closed]
  cases found : ownProperty request.cookies (utf16 gate.sessionCookie) with
  | none =>
      rw [Gate.checkSession, property_eq own, found]
      exact refuse_decides texts "none"
  | some cookie =>
      obtain ⟨credential, value, -⟩ := texts.cookies.ownProperty found
      obtain rfl : cookie = ⟨some credential⟩ := by rw [← value]
      rw [checkSession_verified rfl found]
      cases verified : gate.verify credential secret with
      | none => exact refuse_decides texts "signature"
      | some session =>
          simp only
          split_ifs with event expired address
          · exact refuse_decides texts "event"
          · exact refuse_decides texts "expired"
          · exact refuse_decides texts "ip"
          · obtain ⟨first, second, third, parts, -, -, alg, mac, audience, expiry, tag⟩ :=
              verify_eq_some.mp verified
            rw [not_not] at event
            refine ⟨_, rfl, .inr ⟨rfl, credential, found, first, second, third, session.expiresAt, parts,
              mac.symm, alg, by rw [audience, event], expiry, expired, fun bound => ?_⟩⟩
            rw [tag]
            rw [bound, Bool.true_and, Bool.not_eq_true, Bool.not_eq_false'] at address
            exact address

/-- **Nothing a visitor sends makes the decision throw.** -/
theorem attempt_total (own : gate.sessionCookie ∉ objectPrototype) (version : cfg.v = .finite 1)
    {rules : List ProtectionRule} (shapes : cfg.r = rules.map ProtectionRule.wire)
    (texts : request.Texts) :
    ∃ outcome, gate.attempt ⟨.ok cfg, .ok secret⟩ now ip request = .ok outcome ∧
      ((∃ rule ∈ rules, gate.matches rule.wire request = .ok true) →
        Gate.windowOpen cfg.s now = false → Gate.windowOpen cfg.f now = false →
        gate.Decides cfg secret now ip request outcome) := by
  obtain ⟨covered, evaluated, some⟩ := protectedByRule_eq gate rules request
  rw [← shapes] at evaluated
  have run := @Gate.attempt.eq_def gate ⟨.ok cfg, .ok secret⟩ now ip request
  simp only [bind, Except.bind, version, ne_eq, not_true, if_false, evaluated] at run
  cases covered with
  | false =>
      exact ⟨_, run, fun covered => absurd (some.mpr covered) Bool.false_ne_true⟩
  | true =>
      cases enforced : Gate.windowOpen cfg.s now with
      | true =>
          simp only [enforced] at run
          exact ⟨_, run, fun _ none => nomatch none⟩
      | false =>
          cases closed : Gate.windowOpen cfg.f now with
          | true =>
              simp only [enforced, closed] at run
              exact ⟨_, run, fun _ _ none => nomatch none⟩
          | false =>
              obtain ⟨outcome, done, decides⟩ :=
                attempt_decides own version evaluated enforced closed texts
              exact ⟨outcome, done, fun _ _ _ => decides⟩

/-! ## Marks -/

/-- The marks of the gate. -/
def gateMarks : Fields :=
  [(utf16 "x-wr-gate", ⟨some (utf16 "pending")⟩), (utf16 "x-wr-gate", ⟨some (utf16 "failopen")⟩),
    (utf16 "x-wr-gate-failed", ⟨some (utf16 "true")⟩)]

/-- A request went on without what it had under the names of the gate's marks, and with at most one
mark of the gate's own. -/
def MarkedByGate (sent passed : Request) : Prop :=
  ∃ marks, (marks = [] ∨ ∃ mark ∈ gateMarks, marks = [mark]) ∧
    passed = { sent with headers := (sent.headers.filter fun field =>
      field.1 ≠ utf16 "x-wr-gate" ∧ field.1 ≠ utf16 "x-wr-gate-failed") ++ marks }

/-- What is stripped is what has the names of the marks. -/
theorem strip_headers (sent : Request) : (Gate.stripSpoofableHeaders sent).headers =
    sent.headers.filter fun field =>
      field.1 ≠ utf16 "x-wr-gate" ∧ field.1 ≠ utf16 "x-wr-gate-failed" := by
  rw [Gate.stripSpoofableHeaders, deleteField, deleteField, List.filter_filter]
  refine List.filter_congr fun field _ => ?_
  rw [Bool.and_comm, ← Bool.decide_and]

/-- A mark is set on a request without any. -/
theorem marked_of_mark {sent passed : Request} {name value : String}
    (mark : (utf16 name, (⟨some (utf16 value)⟩ : Field)) ∈ gateMarks)
    (named : name = "x-wr-gate" ∨ name = "x-wr-gate-failed")
    (set : Gate.mark (Gate.stripSpoofableHeaders sent) name value = .origin passed) :
    MarkedByGate sent passed := by
  obtain rfl := Outcome.origin.inj set
  refine ⟨[_], .inr ⟨_, mark, rfl⟩, ?_⟩
  have stripped : deleteField (Gate.stripSpoofableHeaders sent).headers name =
      (Gate.stripSpoofableHeaders sent).headers := by
    rw [deleteField, List.filter_eq_self, strip_headers]
    intro field member
    have apart := of_decide_eq_true (List.mem_filter.mp member).2
    rcases named with rfl | rfl
    · exact decide_eq_true apart.1
    · exact decide_eq_true apart.2
  rw [setField, stripped, strip_headers]
  rfl

theorem refuse_ne_origin {reason : String} {passed : Request} :
    gate.refuse request reason ≠ .ok (.origin passed) := by
  unfold Gate.refuse
  simp only [bind, Except.bind]
  intro same
  split at same
  · cases same
  · split_ifs at same
    · split at same
      · cases same
      · split at same
        · cases same
        · cases same
    · cases same

/-- The checks of a session let a request pass as it is. -/
theorem checkSession_origin {kvs : Kvs} {bound : Bool} {passed : Request}
    (done : gate.checkSession kvs bound now ip request = .ok (.origin passed)) : passed = request := by
  rw [Gate.checkSession] at done
  split at done
  · exact absurd done refuse_ne_origin
  · simp only [bind, Except.bind] at done
    split at done
    · cases done
    · split at done
      · cases done
      · split at done
        · exact absurd done refuse_ne_origin
        · split_ifs at done
          · exact absurd done refuse_ne_origin
          · exact absurd done refuse_ne_origin
          · exact absurd done refuse_ne_origin
          · exact (Outcome.origin.inj (Except.ok.inj done)).symm

/-- The decision lets a request pass as it is, or with a window's mark. -/
theorem attempt_origin {kvs : Kvs} {passed : Request}
    (done : gate.attempt kvs now ip request = .ok (.origin passed)) :
    passed = request ∨ Gate.mark request "x-wr-gate" "pending" = .origin passed ∨
      Gate.mark request "x-wr-gate" "failopen" = .origin passed := by
  rw [Gate.attempt] at done
  cases config : kvs.config with
  | error error => simp [config, bind, Except.bind] at done
  | ok cfg =>
      simp only [config, bind, Except.bind] at done
      by_cases version : cfg.v = .finite 1
      · simp only [version, ne_eq, not_true, if_false] at done
        cases evaluated : gate.protectedByRule request cfg.r with
        | error error => simp [evaluated] at done
        | ok covered =>
            simp only [evaluated] at done
            by_cases protected_ : covered = true
            · rw [if_neg (not_not.mpr protected_)] at done
              by_cases enforced : Gate.windowOpen cfg.s now = true
              · rw [if_pos enforced] at done
                exact .inr (.inl (Except.ok.inj done))
              · rw [if_neg enforced] at done
                by_cases closed : Gate.windowOpen cfg.f now = true
                · rw [if_pos closed] at done
                  exact .inr (.inr (Except.ok.inj done))
                · rw [if_neg closed] at done
                  exact .inl (checkSession_origin done)
            · rw [if_pos protected_] at done
              exact .inl (Outcome.origin.inj (Except.ok.inj done)).symm
      · simp only [version, ne_eq, not_false_eq_true, if_true] at done
        cases done

/-- **The marks the origin sees are the gate's own**, whatever the decision does. -/
theorem handler_marks {kvs : Kvs} {event : Event} {passed : Request}
    (done : gate.handler kvs now event = .origin passed) : MarkedByGate event.request passed := by
  unfold Gate.handler at done
  simp only at done
  cases decided : gate.attempt kvs now event.ip (Gate.stripSpoofableHeaders event.request) with
  | error error =>
      rw [decided] at done
      exact marked_of_mark (by simp [gateMarks]) (.inr rfl) done
  | ok outcome =>
      rw [decided] at done
      obtain rfl : outcome = .origin passed := done
      rcases attempt_origin decided with rfl | pending | failopen
      · refine ⟨[], .inl rfl, ?_⟩
        rw [List.append_nil, ← strip_headers]
        rfl
      · exact marked_of_mark (by simp [gateMarks]) (.inl rfl) pending
      · exact marked_of_mark (by simp [gateMarks]) (.inl rfl) failopen

end Decision

theorem handler_of_attempt {gate : Gate} {kvs : Kvs} {now : ℕ} {ip : Units} {request : Request}
    {outcome : Outcome} (done : gate.attempt kvs now ip (Gate.stripSpoofableHeaders request) =
      .ok outcome) : gate.handler kvs now ⟨request, ip⟩ = outcome := by
  simp only [Gate.handler, done]

/-- **No request talks its way past the gate**: the decision never throws, a covered request outside
both windows is refused unless its session opens the gate, and the origin sees no mark but the
gate's own. -/
theorem gate_admits_only_sessions (gate : Gate) (own : gate.sessionCookie ∉ objectPrototype)
    (cfg : Document) (version : cfg.v = .finite 1) (rules : List ProtectionRule)
    (shapes : cfg.r = rules.map ProtectionRule.wire) (secret ip : Units) (now : ℕ)
    (sent : ViewerRequest) :
    let kvs : Kvs := ⟨.ok cfg, .ok secret⟩
    let seen := Gate.stripSpoofableHeaders sent.toJs
    let outcome := gate.handler kvs now ⟨sent.toJs, ip⟩
    gate.attempt kvs now ip seen = .ok outcome ∧
      ((∃ rule ∈ rules, gate.matches rule.wire seen = .ok true) →
        Gate.windowOpen cfg.s now = false → Gate.windowOpen cfg.f now = false →
        gate.Decides cfg secret now ip seen outcome) ∧
      ∀ passed, outcome = .origin passed → MarkedByGate sent.toJs passed := by
  intro kvs seen outcome
  have texts : seen.Texts := texts_seen sent
  obtain ⟨decided, done, decides⟩ : ∃ decided, gate.attempt kvs now ip seen = .ok decided ∧
      ((∃ rule ∈ rules, gate.matches rule.wire seen = .ok true) →
        Gate.windowOpen cfg.s now = false → Gate.windowOpen cfg.f now = false →
        gate.Decides cfg secret now ip seen decided) :=
    attempt_total own version shapes texts
  have same : outcome = decided := handler_of_attempt done
  refine ⟨by rw [same]; exact done, ?_, fun passed went => handler_marks went⟩
  rw [same]
  exact decides

namespace Sample

/-- A document that enforces a rule of each kind, with addresses bound. -/
def enforcingDocument : Document :=
  ⟨.finite 1, .finite 0, .finite 0, rules.map ProtectionRule.wire, true⟩

/-- A request that names what every object inherits, and sends a mark of its own. -/
def inherited : ViewerRequest where
  uri := "/shop/checkout"
  headers := [("__proto__", "x"), ("x-wr-gate", "failopen")]
  cookies := [("constructor", "x"), ("__proto__", "y")]
  querystring := [("next", "/")]

end Sample

/-- Without a session the request is refused, whatever else it says. -/
theorem gate_admits_only_sessions_sample : ∃ response,
    Sample.latinGate.handler ⟨.ok Sample.enforcingDocument, .ok (utf16 "secret")⟩ 100
      ⟨Sample.inherited.toJs, utf16 "192.0.2.1"⟩ = .respond response := by
  have own : Sample.latinGate.sessionCookie ∉ objectPrototype := by decide +kernel
  obtain ⟨-, decides, -⟩ := gate_admits_only_sessions Sample.latinGate own Sample.enforcingDocument rfl
    Sample.rules rfl (utf16 "secret") (utf16 "192.0.2.1") 100 Sample.inherited
  have covered : Sample.latinGate.matches (ProtectionRule.pathPrefix "/Shop/Checkout").wire
      (Gate.stripSpoofableHeaders Sample.inherited.toJs) = .ok true := by
    decide +kernel
  rcases decides ⟨_, List.mem_cons_self, covered⟩ (by decide +kernel) (by decide +kernel) with
    refused | ⟨-, credential, cookie, -⟩
  · exact refused
  · have absent : ownProperty (Gate.stripSpoofableHeaders Sample.inherited.toJs).cookies
        (utf16 Sample.latinGate.sessionCookie) = none := by
      decide +kernel
    rw [absent] at cookie
    cases cookie

end WaitingRoom.Edge
