import WaitingRoom.Edge.Conformance

/-!
# Room for the break-glass

A ruleset is written under a ceiling that leaves room for the other fields to grow, so that a later
fail-open still fits the store. The room covers the growth of two of the three other fields. A
ruleset leaves enough of it exactly when what the fields can still grow by fits
(`encodes_iff_headroomCovers`), and a run of the console that writes no other ruleset never reaches
a document on which a fail-open fails (`break_glass_fits`).
-/

set_option autoImplicit false

namespace WaitingRoom.Edge

/-! ## The compact text of a document -/

/-- A character inside a JSON string. -/
def escapeChar (c : Char) : List Char :=
  if c = '"' then "\\\"".toList
  else if c = Char.ofNat 92 then "\\\\".toList
  else if c = Char.ofNat 8 then "\\b".toList
  else if c = Char.ofNat 9 then "\\t".toList
  else if c = Char.ofNat 10 then "\\n".toList
  else if c = Char.ofNat 12 then "\\f".toList
  else if c = Char.ofNat 13 then "\\r".toList
  else if c.toNat < 32 then "\\u00".toList ++ [Nat.digitChar (c.toNat / 16), Nat.digitChar (c.toNat % 16)]
  else [c]

/-- A JSON string. -/
def quoted (text : String) : List Char := '"' :: text.toList.flatMap escapeChar ++ ['"']

/-- A JSON array of printed items. -/
def bracketed (items : List (List Char)) : List Char :=
  '[' :: [','].intercalate items ++ [']']

/-- The tuple of a rule. -/
def ruleText : ProtectionRule → List Char
  | .pathPrefix path => bracketed [quoted "p", quoted path]
  | .cookie name => bracketed [quoted "c", quoted name]
  | .userAgent needle => bracketed [quoted "u", quoted needle]
  | .header name value => bracketed [quoted "h", quoted name, quoted value]

/-- The array of the rules. -/
def rulesText (rules : List ProtectionRule) : List Char := bracketed (rules.map ruleText)

/-- The digits of a number. -/
def decimal (n : ℕ) : List Char := n.repr.toList

/-- The member that is printed while addresses are bound. -/
def bindIpText (bindIp : Bool) : List Char := if bindIp then ",\"b\":true".toList else []

/-- The document as `serde_json` prints it. -/
def documentText (config : GateConfig) : String :=
  String.ofList ("\x7b\"v\":".toList ++ decimal config.v ++ ",\"s\":".toList ++
    decimal config.enforceFrom ++ ",\"f\":".toList ++ decimal config.failOpenUntil ++
    ",\"r\":".toList ++ rulesText config.rules ++ bindIpText config.bindIp ++ "\x7d".toList)

/-- The printer writes documents without blanks, in the order of their fields. -/
structure JsonText.Compact (text : JsonText) : Prop where
  prints : ∀ config : GateConfig, config.Fits → text.print config.toJson = documentText config

/-! ## Its size -/

/-- The bytes of a text. -/
def size (chars : List Char) : ℕ := (chars.flatMap String.utf8EncodeChar).length

theorem size_append (left right : List Char) : size (left ++ right) = size left + size right := by
  rw [size, List.flatMap_append, List.length_append, size, size]

theorem utf8_ofList (chars : List Char) : (utf8 (String.ofList chars)).length = size chars := by
  rw [utf8, String.toList_ofList, size]

/-- A digit takes a byte. -/
theorem size_decimal (n : ℕ) : size (decimal n) = n.repr.length := by
  have bytes : ∀ chars : List Char, (∀ c ∈ chars, c.isDigit) → size chars = chars.length := by
    intro chars
    induction chars with
    | nil => intro _; rfl
    | cons c chars ih =>
        intro digits
        have here : (String.utf8EncodeChar c).length = 1 := by
          have digit := digits c List.mem_cons_self
          simp only [Char.isDigit, Bool.and_eq_true, decide_eq_true_eq] at digit
          rw [String.length_utf8EncodeChar, Char.utf8Size_eq_one_iff]
          exact UInt32.le_trans digit.2 (by decide)
        have rest := ih fun other member => digits other (List.mem_cons_of_mem _ member)
        rw [size, List.flatMap_cons, List.length_append, here, List.length_cons, ← rest, size,
          Nat.add_comm]
  rw [bytes (decimal n), decimal, String.length_toList]
  intro c member
  rw [decimal, Nat.toList_repr] at member
  exact Nat.isDigit_of_mem_toDigits (by decide) (by decide) member

/-- What a document takes, beside the numbers of `s` and `f` and the binding. -/
def baseSize (v : ℕ) (rules : List ProtectionRule) : ℕ := 21 + v.repr.length + size (rulesText rules)

/-- What the binding takes. -/
def bindIpSize (bindIp : Bool) : ℕ := if bindIp then 9 else 0

theorem size_literals : size "\x7b\"v\":".toList = 5 ∧ size ",\"s\":".toList = 5 ∧
    size ",\"f\":".toList = 5 ∧ size ",\"r\":".toList = 5 ∧ size "\x7d".toList = 1 := by
  decide +kernel

theorem size_bindIpText (bindIp : Bool) : size (bindIpText bindIp) = bindIpSize bindIp := by
  cases bindIp <;> decide +kernel

theorem size_document (config : GateConfig) :
    (utf8 (documentText config)).length = baseSize config.v config.rules +
      config.enforceFrom.repr.length + config.failOpenUntil.repr.length + bindIpSize config.bindIp := by
  refine (utf8_ofList _).trans ?_
  simp only [size_append, size_decimal, size_literals, size_bindIpText, baseSize]
  omega

theorem bindIpSize_le (bindIp : Bool) : bindIpSize bindIp ≤ 9 := by
  cases bindIp <;> decide

/-- A number of at most ten digits. -/
theorem digits_le {n : ℕ} (small : n < 10 ^ 10) : n.repr.length ≤ 10 :=
  (Nat.length_repr_le_iff (by decide)).mpr small

theorem lt_u64Bound {n : ℕ} (small : n < 10 ^ 10) : n < u64Bound :=
  lt_trans small (by decide)

/-! ## Encoding -/

/-- The rules alone pass the encoder's checks. -/
structure Encodable (rules : List ProtectionRule) : Prop where
  count : rules.length ≤ maxRules
  fields : validateRuleFields rules = .ok ()

section Encoding

variable {text : JsonText} {config probe : GateConfig} {rules : List ProtectionRule}

/-- **What is encoded**: checked rules, in a document that fits. -/
theorem encode_eq_ok_iff {value : String} : encodeGateConfig text config = .ok value ↔
    Encodable config.rules ∧ (utf8 (text.print config.toJson)).length ≤ maxConfigBytes ∧
      text.print config.toJson = value := by
  constructor
  · intro encoded
    rw [encodeGateConfig] at encoded
    split_ifs at encoded with many
    split at encoded
    · cases encoded
    · rename_i fields
      simp only at encoded
      split_ifs at encoded with large
      exact ⟨⟨not_lt.mp many, fields⟩, not_lt.mp large, Except.ok.inj encoded⟩
  · rintro ⟨⟨count, fields⟩, fits, rfl⟩
    rw [encodeGateConfig, if_neg (not_lt.mpr count), fields]
    exact if_neg (not_lt.mpr fits)

/-- A document whose numbers fit takes what its text takes. -/
theorem encodes_iff (compact : text.Compact) (fits : config.Fits) :
    (∃ value, encodeGateConfig text config = .ok value) ↔ Encodable config.rules ∧
      baseSize config.v config.rules + config.enforceFrom.repr.length +
        config.failOpenUntil.repr.length + bindIpSize config.bindIp ≤ maxConfigBytes := by
  rw [← size_document, ← compact.prints config fits]
  constructor
  · rintro ⟨value, encoded⟩
    obtain ⟨encodable, small, -⟩ := encode_eq_ok_iff.mp encoded
    exact ⟨encodable, small⟩
  · rintro ⟨encodable, small⟩
    exact ⟨_, encode_eq_ok_iff.mpr ⟨encodable, small, rfl⟩⟩

/-- A document over the ceiling. -/
theorem encode_eq_tooLarge (compact : text.Compact) (fits : config.Fits)
    (encodable : Encodable config.rules)
    (large : maxConfigBytes < (utf8 (documentText config)).length) :
    encodeGateConfig text config =
      .error (.tooLarge (utf8 (documentText config)).length maxConfigBytes) := by
  rw [encodeGateConfig, if_neg (not_lt.mpr encodable.count), encodable.fields]
  simp only [compact.prints config fits]
  exact if_pos large

/-- What is accepted of a ruleset: its document fits under the lower ceiling. -/
theorem checkRuleset_eq_ok_iff : checkRuleset text probe rules = .ok () ↔ Encodable rules ∧
    (utf8 (text.print { probe with rules := rules }.toJson)).length ≤ rulesWriteCeiling := by
  rw [checkRuleset]
  cases encoded : encodeGateConfig text { probe with rules := rules } with
  | error error =>
      refine ⟨nofun, fun ⟨encodable, small⟩ => ?_⟩
      have below := small.trans (Nat.sub_le maxConfigBytes 20)
      rw [encode_eq_ok_iff.mpr ⟨encodable, below, rfl⟩] at encoded
      cases encoded
  | ok value =>
      obtain ⟨encodable, -, rfl⟩ := encode_eq_ok_iff.mp encoded
      simp only
      split_ifs with large
      · exact ⟨nofun, fun accepted => absurd accepted.2 (not_le.mpr large)⟩
      · exact ⟨fun _ => ⟨encodable, not_lt.mp large⟩, fun _ => rfl⟩

/-- An accepted ruleset passes the encoder's checks. -/
theorem encodable_of_checked (checked : checkRuleset text probe rules = .ok ()) :
    Encodable rules :=
  (checkRuleset_eq_ok_iff.mp checked).1

/-- A ruleset is accepted by the size of its document's text. -/
theorem checked_of_size (compact : text.Compact) (fits : probe.Fits) (encodable : Encodable rules)
    (small : baseSize probe.v rules + probe.enforceFrom.repr.length +
      probe.failOpenUntil.repr.length + bindIpSize probe.bindIp ≤ rulesWriteCeiling) :
    checkRuleset text probe rules = .ok () := by
  have checked : ({ probe with rules := rules } : GateConfig).Fits :=
    ⟨fits.v, fits.enforceFrom, fits.failOpenUntil⟩
  rw [checkRuleset_eq_ok_iff, compact.prints _ checked, size_document]
  exact ⟨encodable, small⟩

end Encoding

/-! ## What the other fields can still grow by -/

/-- The accepted document fits after both numbers have grown to ten digits and the binding has been
turned on. -/
def HeadroomCovers (text : JsonText) (probe : GateConfig) (rules : List ProtectionRule) : Prop :=
  (utf8 (text.print { probe with rules := rules }.toJson)).length + (10 + 10 + 9) ≤
    maxConfigBytes + probe.enforceFrom.repr.length + probe.failOpenUntil.repr.length +
      bindIpSize probe.bindIp

/-- Both numbers of a document have at most ten digits. -/
structure GateConfig.Narrow (config : GateConfig) : Prop where
  v : config.v < 256
  enforceFrom : config.enforceFrom < 10 ^ 10
  failOpenUntil : config.failOpenUntil < 10 ^ 10

theorem GateConfig.Narrow.fits {config : GateConfig} (narrow : config.Narrow) : config.Fits :=
  ⟨narrow.v, lt_u64Bound narrow.enforceFrom, lt_u64Bound narrow.failOpenUntil⟩

section Growth

variable {text : JsonText} {config probe : GateConfig} {rules : List ProtectionRule}

/-- What the rules take next to the widest other fields. -/
theorem headroomCovers_iff (compact : text.Compact) (fits : probe.Fits) :
    HeadroomCovers text probe rules ↔ baseSize probe.v rules + 29 ≤ maxConfigBytes := by
  have checked : ({ probe with rules := rules } : GateConfig).Fits :=
    ⟨fits.v, fits.enforceFrom, fits.failOpenUntil⟩
  rw [HeadroomCovers, compact.prints _ checked, size_document]
  simp only
  omega

/-- Rules that leave the room are encoded beside any narrow fields. -/
theorem encodes_of_room (compact : text.Compact) (encodable : Encodable config.rules)
    (room : baseSize config.v config.rules + 29 ≤ maxConfigBytes) (narrow : config.Narrow) :
    ∃ value, encodeGateConfig text config = .ok value := by
  refine (encodes_iff compact narrow.fits).mpr ⟨encodable, ?_⟩
  have first := digits_le narrow.enforceFrom
  have second := digits_le narrow.failOpenUntil
  have third := bindIpSize_le config.bindIp
  omega

/-- **An accepted ruleset is encoded beside all other fields exactly when it leaves the room.** -/
theorem encodes_iff_headroomCovers (compact : text.Compact) (fits : probe.Fits)
    (checked : checkRuleset text probe rules = .ok ()) :
    (∀ enforceFrom failOpenUntil bindIp, enforceFrom < 10 ^ 10 → failOpenUntil < 10 ^ 10 →
        ∃ value, encodeGateConfig text ⟨probe.v, enforceFrom, failOpenUntil, rules, bindIp⟩ = .ok value) ↔
      HeadroomCovers text probe rules := by
  rw [headroomCovers_iff compact fits]
  constructor
  · intro encodes
    have widest : 9999999999 < 10 ^ 10 := by decide
    have grown : (⟨probe.v, 9999999999, 9999999999, rules, true⟩ : GateConfig).Fits :=
      ⟨fits.v, lt_u64Bound widest, lt_u64Bound widest⟩
    have bound := ((encodes_iff compact grown).mp (encodes _ _ true widest widest)).2
    have digits : (9999999999 : ℕ).repr.length = 10 := by decide
    simp only [digits, bindIpSize, if_true] at bound
    omega
  · intro room enforceFrom failOpenUntil bindIp first second
    exact encodes_of_room compact (encodable_of_checked checked) room ⟨fits.v, first, second⟩

end Growth

/-! ## Runs of the document -/

/-- A change of the document: an action of the console, with the document it checked a ruleset
against, or a new start of enforcement. -/
inductive DocumentChange where
  | action (job : EdgeJob) (probe : GateConfig)
  | enforceFrom (time : ℕ)

namespace DocumentChange

/-- What a change makes of the document. -/
def apply : DocumentChange → GateConfig → GateConfig
  | .action job _, config => job.edit config
  | .enforceFrom time, config => { config with enforceFrom := time }

/-- A change that is accepted: times have at most ten digits, a ruleset passes its check against a
document of the same version, and the edited document is encoded. -/
def Accepted (text : JsonText) (config : GateConfig) : DocumentChange → Prop
  | .action job probe =>
      (∃ value, encodeGateConfig text (job.edit config) = .ok value) ∧
        match job with
        | .failOpen minutes _ now => ∀ parsed, parseMinutes minutes = some parsed →
            failOpenDeadline parsed now < 10 ^ 10
        | .setRules rules _ _ => probe.v = config.v ∧ probe.Fits ∧
            checkRuleset text probe rules = .ok ()
        | .recover _ _ | .ipBinding _ _ _ => True
  | .enforceFrom time => time < 10 ^ 10

/-- A ruleset that is written leaves the room. -/
def LeavesRoom (text : JsonText) : DocumentChange → Prop
  | .action (.setRules rules _ _) probe => HeadroomCovers text probe rules
  | _ => True

end DocumentChange

/-- The documents that accepted changes lead to. -/
inductive DocumentRun (text : JsonText) (origin : GateConfig) : List DocumentChange → GateConfig → Prop where
  | start : DocumentRun text origin [] origin
  | step {changes : List DocumentChange} {config : GateConfig} (change : DocumentChange)
      (earlier : DocumentRun text origin changes config) (accepted : change.Accepted text config) :
      DocumentRun text origin (change :: changes) (change.apply config)

/-- A document that stays encodable whatever its other fields become. -/
structure Roomy (config : GateConfig) : Prop where
  narrow : config.Narrow
  encodable : Encodable config.rules
  room : baseSize config.v config.rules + 29 ≤ maxConfigBytes

section Runs

variable {text : JsonText} {origin config : GateConfig} {change : DocumentChange}
  {changes : List DocumentChange}

/-- An accepted change that leaves the room keeps it. -/
theorem Roomy.apply (compact : text.Compact) (roomy : Roomy config)
    (accepted : change.Accepted text config) (leaves : change.LeavesRoom text) :
    Roomy (change.apply config) := by
  obtain ⟨narrow, encodable, room⟩ := roomy
  cases change with
  | enforceFrom time => exact ⟨⟨narrow.v, accepted, narrow.failOpenUntil⟩, encodable, room⟩
  | action job probe =>
      cases job with
      | failOpen minutes actor now =>
          rw [DocumentChange.apply, EdgeJob.edit]
          cases parsed : parseMinutes minutes with
          | none => exact ⟨narrow, encodable, room⟩
          | some duration =>
              exact ⟨⟨narrow.v, narrow.enforceFrom, accepted.2 duration parsed⟩, encodable, room⟩
      | recover actor now =>
          exact ⟨⟨narrow.v, narrow.enforceFrom, by simp [DocumentChange.apply, EdgeJob.edit]⟩,
            encodable, room⟩
      | ipBinding on actor now =>
          exact ⟨⟨narrow.v, narrow.enforceFrom, narrow.failOpenUntil⟩, encodable, room⟩
      | setRules rules actor now =>
          obtain ⟨version, probed, checked⟩ := accepted.2
          have covers := (headroomCovers_iff compact probed).mp leaves
          rw [version] at covers
          exact ⟨⟨narrow.v, narrow.enforceFrom, narrow.failOpenUntil⟩,
            encodable_of_checked checked, covers⟩

/-- A run whose rulesets leave the room stays roomy. -/
theorem DocumentRun.roomy (compact : text.Compact) (run : DocumentRun text origin changes config)
    (start : Roomy origin) (leaves : ∀ change ∈ changes, change.LeavesRoom text) : Roomy config := by
  induction run with
  | start => exact start
  | step change earlier accepted ih =>
      have before := ih fun other member => leaves other (List.mem_cons_of_mem _ member)
      exact before.apply compact accepted (leaves _ List.mem_cons_self)

end Runs

/-- **Break-glass can be written as long as rulesets leave the room**: an accepted ruleset is encoded
beside any other fields exactly when it leaves the room for all of them, and where every ruleset
does, each document that accepted changes lead to takes a fail-open. -/
theorem break_glass_fits (text : JsonText) (compact : text.Compact) :
    (∀ probe rules, probe.Fits → checkRuleset text probe rules = .ok () →
      ((∀ enforceFrom failOpenUntil bindIp, enforceFrom < 10 ^ 10 → failOpenUntil < 10 ^ 10 →
          ∃ value, encodeGateConfig text ⟨probe.v, enforceFrom, failOpenUntil, rules, bindIp⟩ =
            .ok value) ↔
        HeadroomCovers text probe rules)) ∧
    ∀ origin changes config, origin.Narrow → checkRuleset text origin origin.rules = .ok () →
      HeadroomCovers text origin origin.rules → DocumentRun text origin changes config →
      (∀ change ∈ changes, change.LeavesRoom text) →
      ∀ deadline, deadline < 10 ^ 10 →
        ∃ value, encodeGateConfig text { config with failOpenUntil := deadline } = .ok value := by
  refine ⟨fun probe rules fits checked => encodes_iff_headroomCovers compact fits checked, ?_⟩
  intro origin changes config narrow checked covers run leaves deadline small
  have start : Roomy origin :=
    ⟨narrow, encodable_of_checked checked, (headroomCovers_iff compact narrow.fits).mp covers⟩
  obtain ⟨narrow, encodable, room⟩ := run.roomy compact start leaves
  exact encodes_of_room compact encodable room ⟨narrow.v, narrow.enforceFrom, small⟩

/-! ## A sample console -/

namespace Sample

/-- A compact printer. -/
def compactText : JsonText where
  print json := ((GateConfig.ofJson json).map documentText).getD ""
  parse _ := none

theorem compactText_compact : compactText.Compact := by
  refine ⟨fun config fits => ?_⟩
  simp only [compactText, GateConfig.ofJson_toJson fits, Option.map_some, Option.getD_some]

/-- The document as it is seeded. -/
def seeded : GateConfig := ⟨1, 0, 0, [], false⟩

/-- A path prefix of some length. -/
def pathOf (length : ℕ) : ProtectionRule :=
  .pathPrefix (String.ofList ('/' :: List.replicate (length - 1) 'a'))

/-- Two short rules. -/
def shortRuleset : List ProtectionRule := [pathOf 9, .cookie "session"]

/-- Rules whose seeded document is at the lower ceiling. -/
def fullRuleset : List ProtectionRule := List.replicate 6 (pathOf 128) ++ [pathOf 74]

theorem seeded_narrow : seeded.Narrow := ⟨by decide, by decide, by decide⟩

theorem encodable_nil : Encodable [] := ⟨by decide, rfl⟩

theorem encodable_short : Encodable shortRuleset := ⟨by decide, by decide +kernel⟩

theorem encodable_full : Encodable fullRuleset := ⟨by decide, by decide +kernel⟩

theorem baseSize_nil : baseSize 1 [] = 24 := by decide +kernel

theorem baseSize_short : baseSize 1 shortRuleset = 57 := by decide +kernel

theorem baseSize_full : baseSize 1 fullRuleset = 928 := by decide +kernel

/-- A ruleset is written, the binding turned on, and the start of enforcement set, latest first. -/
def growth (rules : List ProtectionRule) : List DocumentChange :=
  [.enforceFrom 1700000000, .action (.ipBinding true "operator" ⟨0⟩) seeded,
    .action (.setRules rules "operator" ⟨0⟩) seeded]

/-- The document the growth leads to. -/
def grown (rules : List ProtectionRule) : GateConfig := ⟨1, 1700000000, 0, rules, true⟩

/-- An hour's fail-open after the start of enforcement. -/
def breakGlass : EdgeJob := .failOpen "60" "operator" ⟨1700000000000000000⟩

/-- A seeded document with other rules and binding is encoded if it fits. -/
theorem seeded_encodes {rules : List ProtectionRule} {bindIp : Bool} (encodable : Encodable rules)
    (small : baseSize 1 rules + 2 + bindIpSize bindIp ≤ maxConfigBytes) :
    ∃ value, encodeGateConfig compactText ⟨1, 0, 0, rules, bindIp⟩ = .ok value := by
  have zero : (0 : ℕ).repr.length = 1 := by decide
  have fits : (⟨1, 0, 0, rules, bindIp⟩ : GateConfig).Fits :=
    ⟨seeded_narrow.fits.v, seeded_narrow.fits.enforceFrom, seeded_narrow.fits.failOpenUntil⟩
  refine (encodes_iff compactText_compact fits).mpr ⟨encodable, ?_⟩
  simp only [zero]
  exact small

/-- A ruleset for the seeded document is accepted if it fits. -/
theorem checked_seeded {rules : List ProtectionRule} (encodable : Encodable rules)
    (small : baseSize 1 rules + 2 ≤ rulesWriteCeiling) :
    checkRuleset compactText seeded rules = .ok () :=
  checked_of_size compactText_compact seeded_narrow.fits encodable small

theorem grown_run {rules : List ProtectionRule} (encodable : Encodable rules)
    (small : baseSize 1 rules + 2 ≤ rulesWriteCeiling) :
    DocumentRun compactText seeded (growth rules) (grown rules) := by
  have checked := checked_seeded encodable small
  have room : baseSize 1 rules + 2 + 9 ≤ maxConfigBytes := by
    simp only [rulesWriteCeiling, maxConfigBytes] at small ⊢
    omega
  have first : DocumentRun compactText seeded [_] ⟨1, 0, 0, rules, false⟩ :=
    .step (.action (.setRules rules "operator" ⟨0⟩) seeded) .start
      ⟨seeded_encodes encodable (le_trans (Nat.le_add_right _ 9) room), rfl,
        seeded_narrow.fits, checked⟩
  have second : DocumentRun compactText seeded _ ⟨1, 0, 0, rules, true⟩ :=
    .step (.action (.ipBinding true "operator" ⟨0⟩) seeded) first
      ⟨seeded_encodes encodable room, trivial⟩
  exact .step (.enforceFrom 1700000000) second (show 1700000000 < 10 ^ 10 by decide)

end Sample

/-- **Two short rules leave the room**: with the binding on and enforcement started, the document
takes a fail-open. -/
theorem break_glass_fits_sample :
    (∃ value, encodeGateConfig Sample.compactText ⟨1, 1700000000, 1700003600, Sample.shortRuleset, true⟩ =
      .ok value) ∧
    ∃ value, encodeGateConfig Sample.compactText
      { Sample.grown Sample.shortRuleset with failOpenUntil := 1700003600 } = .ok value := by
  have base := Sample.baseSize_short
  have checked : checkRuleset Sample.compactText Sample.seeded Sample.shortRuleset = .ok () :=
    checked_of_size Sample.compactText_compact Sample.seeded_narrow.fits Sample.encodable_short
      (by rw [Sample.seeded, base]; decide)
  have covers : HeadroomCovers Sample.compactText Sample.seeded Sample.shortRuleset :=
    (headroomCovers_iff Sample.compactText_compact Sample.seeded_narrow.fits).mpr
      (by rw [Sample.seeded, base]; decide)
  have empty : checkRuleset Sample.compactText Sample.seeded Sample.seeded.rules = .ok () :=
    checked_of_size Sample.compactText_compact Sample.seeded_narrow.fits Sample.encodable_nil
      (by rw [Sample.seeded, Sample.baseSize_nil]; decide)
  have starts : HeadroomCovers Sample.compactText Sample.seeded Sample.seeded.rules :=
    (headroomCovers_iff Sample.compactText_compact Sample.seeded_narrow.fits).mpr
      (by rw [Sample.seeded, Sample.baseSize_nil]; decide)
  have run := Sample.grown_run Sample.encodable_short (by rw [base]; decide)
  have leaves : ∀ change ∈ Sample.growth Sample.shortRuleset, change.LeavesRoom Sample.compactText := by
    intro change member
    rcases List.mem_cons.mp member with rfl | member
    · trivial
    rcases List.mem_cons.mp member with rfl | member
    · trivial
    obtain rfl := List.mem_singleton.mp member
    exact covers
  have fits := break_glass_fits Sample.compactText Sample.compactText_compact
  exact ⟨(fits.1 Sample.seeded Sample.shortRuleset Sample.seeded_narrow.fits checked).mpr covers
      1700000000 1700003600 true (by decide) (by decide),
    fits.2 Sample.seeded _ _ Sample.seeded_narrow empty starts run leaves 1700003600 (by decide)⟩

/-- **An accepted ruleset can block the break-glass**: it is accepted at the ceiling, the binding and
the start of enforcement grow the document, and the fail-open is seven bytes too long. -/
theorem break_glass_overflows :
    checkRuleset Sample.compactText Sample.seeded Sample.fullRuleset = .ok () ∧
      DocumentRun Sample.compactText Sample.seeded (Sample.growth Sample.fullRuleset)
        (Sample.grown Sample.fullRuleset) ∧
      encodeGateConfig Sample.compactText (Sample.breakGlass.edit (Sample.grown Sample.fullRuleset)) =
        .error (.tooLarge 957 950) := by
  have base := Sample.baseSize_full
  refine ⟨checked_of_size Sample.compactText_compact Sample.seeded_narrow.fits Sample.encodable_full
    (by rw [Sample.seeded, base]; decide), Sample.grown_run Sample.encodable_full (by rw [base]; decide), ?_⟩
  have edited : Sample.breakGlass.edit (Sample.grown Sample.fullRuleset) =
      ⟨1, 1700000000, 1700003600, Sample.fullRuleset, true⟩ := by
    rfl
  have size : (utf8 (documentText ⟨1, 1700000000, 1700003600, Sample.fullRuleset, true⟩)).length = 957 := by
    rw [size_document, base]
    decide
  rw [edited, encode_eq_tooLarge Sample.compactText_compact ⟨by decide, by decide, by decide⟩
    Sample.encodable_full (by rw [size]; decide), size]
  rfl

end WaitingRoom.Edge
