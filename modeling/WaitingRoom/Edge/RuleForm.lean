import WaitingRoom.Edge.Rules
import WaitingRoom.Text.Lines

/-!
# The ruleset form

The operator edits the ruleset as text, one rule a line: a tag and its fields, with blank lines and
comments between them. The parser trims the line, the rest behind the tag and a header's value, so
every field it returns is non-empty, trimmed and on one line (`WellWritten`, `written_of_parseRules`),
and these are exactly the rules that survive being printed and read again
(`parseRules_formatRules_iff`). What the form shows is therefore read back as it was
(`parseRules_formatRules`).
-/

set_option autoImplicit false

namespace WaitingRoom.Edge

open Text

/-! ## Reading -/

/-- The characters with the `White_Space` property. -/
def isWhitespace (c : Char) : Bool :=
  (0x9 ≤ c.toNat ∧ c.toNat ≤ 0xD) ∨ c.toNat = 0x20 ∨ c.toNat = 0x85 ∨ c.toNat = 0xA0 ∨
    c.toNat = 0x1680 ∨ (0x2000 ≤ c.toNat ∧ c.toNat ≤ 0x200A) ∨ c.toNat = 0x2028 ∨
    c.toNat = 0x2029 ∨ c.toNat = 0x202F ∨ c.toNat = 0x205F ∨ c.toNat = 0x3000

section Reading

-- how a text is quoted in an error
variable (debug : List Char → String)

/-- The rule of one line, or none on a blank line or a comment. -/
def parseLine (number : ℕ) (line : List Char) : Except String (Option ProtectionRule) :=
  let line := trim isWhitespace line
  if line = [] ∨ line.head? = some '#' then .ok none
  else
    match splitOnce isWhitespace line with
    | none => .error s!"line {number}: expected \"<tag> <value...>\", got {debug line}"
    | some (tag, rest) =>
        let rest := trim isWhitespace rest
        match tag with
        | ['p'] => .ok (some (.pathPrefix (String.ofList rest)))
        | ['c'] => .ok (some (.cookie (String.ofList rest)))
        | ['u'] => .ok (some (.userAgent (String.ofList rest)))
        | ['h'] =>
            match splitOnce isWhitespace rest with
            | none =>
                .error s!"line {number}: \"h\" needs a name and a value, got {debug rest}"
            | some (name, value) =>
                .ok (some (.header (String.ofList name)
                  (String.ofList (trim isWhitespace value))))
        | other =>
            .error s!"line {number}: unknown rule tag {debug other} (expected p, c, u, or h)"

/-- The rules of the lines from an index on: the first line that does not parse is the error. -/
def parseRulesFrom : ℕ → List (List Char) → Except String (List ProtectionRule)
  | _, [] => .ok []
  | i, line :: lines => do
      let rule ← parseLine debug (i + 1) line
      let rules ← parseRulesFrom (i + 1) lines
      return rule.toList ++ rules

/-- The ruleset of a form. -/
def parseRules (text : String) : Except String (List ProtectionRule) :=
  parseRulesFrom debug 0 (lines '\n' '\r' text.toList)

end Reading

/-! ## Writing -/

/-- The line of one rule. -/
def formatRule : ProtectionRule → String
  | .pathPrefix path => "p " ++ path ++ "\n"
  | .cookie name => "c " ++ name ++ "\n"
  | .userAgent ua => "u " ++ ua ++ "\n"
  | .header name value => "h " ++ name ++ " " ++ value ++ "\n"

/-- The text the form shows for a ruleset. -/
def formatRules (rules : List ProtectionRule) : String :=
  rules.foldl (fun out rule => out ++ formatRule rule) ""

theorem toList_foldl_formatRule (rules : List ProtectionRule) (out : String) :
    (rules.foldl (fun out rule => out ++ formatRule rule) out).toList
      = out.toList ++ rules.flatMap fun rule => (formatRule rule).toList := by
  induction rules generalizing out with
  | nil => exact (List.append_nil _).symm
  | cons rule rules ih =>
      rw [List.foldl_cons, ih, String.toList_append, List.flatMap_cons, List.append_assoc]

theorem toList_formatRules (rules : List ProtectionRule) :
    (formatRules rules).toList = rules.flatMap fun rule => (formatRule rule).toList :=
  toList_foldl_formatRule rules ""

/-! ## The fields of a rule that was read -/

/-- A field as the parser returns it. -/
structure FormField (text : List Char) : Prop where
  nonempty : text ≠ []
  trimmed : Trimmed isWhitespace text
  oneLine : '\n' ∉ text

/-- A rule whose fields could have come from a line. -/
def WellWritten : ProtectionRule → Prop
  | .pathPrefix path => FormField path.toList
  | .cookie name => FormField name.toList
  | .userAgent ua => FormField ua.toList
  | .header name value =>
      name.toList ≠ [] ∧ (∀ c ∈ name.toList, isWhitespace c = false) ∧ FormField value.toList

/-- What follows the first separator of a trimmed line is a field once it is trimmed. -/
theorem field_of_splitOnce {line name rest : List Char} (trimmed : Trimmed isWhitespace line)
    (oneLine : '\n' ∉ line) (split : splitOnce isWhitespace line = some (name, rest)) :
    FormField (trim isWhitespace rest) where
  nonempty := trim_rest_ne_nil trimmed split
  trimmed := trimmed_trim _ _
  oneLine := by
    obtain ⟨-, separator, -, rfl⟩ := of_splitOnce split
    exact fun mem =>
      oneLine (List.mem_append_right _ (List.mem_cons_of_mem _ (trim_subset _ _ mem)))

/-- The part before the first separator of a trimmed text is not empty. -/
theorem name_ne_nil {line name rest : List Char} (trimmed : Trimmed isWhitespace line)
    (split : splitOnce isWhitespace line = some (name, rest)) : name ≠ [] := by
  rintro rfl
  obtain ⟨-, separator, blank, rfl⟩ := of_splitOnce split
  exact Bool.false_ne_true (trimmed.head separator rfl ▸ blank)

variable {debug : List Char → String}

theorem written_of_parseLine {number : ℕ} {line : List Char} {rule : ProtectionRule}
    (oneLine : '\n' ∉ line) (read : parseLine debug number line = .ok (some rule)) :
    WellWritten rule := by
  have trimmed := trimmed_trim isWhitespace line
  have inner : '\n' ∉ trim isWhitespace line := fun mem => oneLine (trim_subset _ _ mem)
  simp only [parseLine] at read
  generalize trim isWhitespace line = kept at read trimmed inner
  split_ifs at read with skipped
  · exact absurd (Except.ok.inj read) nofun
  cases found : splitOnce isWhitespace kept with
  | none => simp [found] at read
  | some parts =>
      obtain ⟨tag, rest⟩ := parts
      have field := field_of_splitOnce trimmed inner found
      simp only [found] at read
      generalize trim isWhitespace rest = fields at read field
      split at read
      · obtain rfl := Option.some.inj (Except.ok.inj read)
        rwa [WellWritten, String.toList_ofList]
      · obtain rfl := Option.some.inj (Except.ok.inj read)
        rwa [WellWritten, String.toList_ofList]
      · obtain rfl := Option.some.inj (Except.ok.inj read)
        rwa [WellWritten, String.toList_ofList]
      · cases halves : splitOnce isWhitespace fields with
        | none => simp [halves] at read
        | some parts =>
            obtain ⟨name, value⟩ := parts
            simp only [halves] at read
            obtain rfl := Option.some.inj (Except.ok.inj read)
            rw [WellWritten, String.toList_ofList, String.toList_ofList]
            exact ⟨name_ne_nil field.trimmed halves, (of_splitOnce halves).1,
              field_of_splitOnce field.trimmed field.oneLine halves⟩
      · exact absurd read nofun

theorem written_of_parseRulesFrom {i : ℕ} {texts : List (List Char)} {rules : List ProtectionRule}
    (oneLine : ∀ line ∈ texts, '\n' ∉ line)
    (read : parseRulesFrom debug i texts = .ok rules) : ∀ rule ∈ rules, WellWritten rule := by
  induction texts generalizing i rules with
  | nil =>
      obtain rfl := Except.ok.inj read
      exact fun _ mem => absurd mem List.not_mem_nil
  | cons line texts ih =>
      rw [parseRulesFrom] at read
      cases first : parseLine debug (i + 1) line with
      | error message => simp [first, bind, Except.bind] at read
      | ok parsed =>
          cases others : parseRulesFrom debug (i + 1) texts with
          | error message => simp [first, others, bind, Except.bind] at read
          | ok later =>
              simp only [first, others, bind, Except.bind, pure, Except.pure] at read
              obtain rfl := Except.ok.inj read
              intro rule mem
              rcases List.mem_append.mp mem with here | there
              · rw [Option.mem_toList.mp here] at first
                exact written_of_parseLine (oneLine line List.mem_cons_self) first
              · exact ih (fun line mem => oneLine line (List.mem_cons_of_mem _ mem)) others rule
                  there

/-- **The parser's image.** Every rule it returns has fields that could have come from a line. -/
theorem written_of_parseRules {text : String} {rules : List ProtectionRule}
    (read : parseRules debug text = .ok rules) : ∀ rule ∈ rules, WellWritten rule :=
  written_of_parseRulesFrom (fun _ mem => newline_not_mem_of_mem_lines mem) read

/-! ## Reading back a line -/

/-- The tag of a rule's line. -/
def ruleTag : ProtectionRule → Char
  | .pathPrefix _ => 'p'
  | .cookie _ => 'c'
  | .userAgent _ => 'u'
  | .header _ _ => 'h'

/-- What follows the tag and its blank. -/
def ruleFields : ProtectionRule → List Char
  | .pathPrefix path => path.toList
  | .cookie name => name.toList
  | .userAgent ua => ua.toList
  | .header name value => name.toList ++ ' ' :: value.toList

/-- A rule's line without its newline. -/
def ruleLine (rule : ProtectionRule) : List Char := ruleTag rule :: ' ' :: ruleFields rule

theorem toList_formatRule (rule : ProtectionRule) :
    (formatRule rule).toList = ruleLine rule ++ ['\n'] := by
  cases rule <;> simp [formatRule, ruleLine, ruleTag, ruleFields]

theorem solid_ruleTag (rule : ProtectionRule) : isWhitespace (ruleTag rule) = false := by
  cases rule <;> exact of_decide_eq_true rfl

/-- The fields of a written rule, taken together, are one field. -/
theorem WellWritten.field {rule : ProtectionRule} (written : WellWritten rule) :
    FormField (ruleFields rule) := by
  cases rule with
  | pathPrefix path => exact written
  | cookie name => exact written
  | userAgent ua => exact written
  | header name value =>
      obtain ⟨nonempty, solid, field⟩ := written
      refine ⟨by simp [ruleFields], ⟨fun c first => ?_, fun c last => ?_⟩, fun mem => ?_⟩
      · rw [ruleFields, List.head?_append_of_ne_nil _ nonempty] at first
        exact solid c (List.mem_of_head? first)
      · rw [ruleFields, List.getLast?_append_of_ne_nil _ (List.cons_ne_nil _ _),
          List.getLast?_cons_of_ne_nil field.nonempty] at last
        exact field.trimmed.last c last
      · rcases List.mem_append.mp mem with inName | inRest
        · exact absurd (solid _ inName) (by decide)
        · rcases List.mem_cons.mp inRest with blank | inValue
          · exact absurd blank (by decide)
          · exact field.oneLine inValue

theorem WellWritten.trimmed_ruleLine {rule : ProtectionRule} (written : WellWritten rule) :
    Trimmed isWhitespace (ruleLine rule) where
  head := by
    intro c first
    rw [ruleLine, List.head?_cons, Option.mem_def, Option.some.injEq] at first
    exact first ▸ solid_ruleTag rule
  last := by
    intro c last
    rw [ruleLine, List.getLast?_cons_cons,
      List.getLast?_cons_of_ne_nil written.field.nonempty] at last
    exact written.field.trimmed.last c last

theorem WellWritten.oneLine_ruleLine {rule : ProtectionRule} (written : WellWritten rule) :
    '\n' ∉ ruleLine rule := by
  rw [ruleLine, List.mem_cons, List.mem_cons]
  rintro (tag | blank | inFields)
  · exact absurd (tag ▸ solid_ruleTag rule) (by decide)
  · exact absurd blank (by decide)
  · exact written.field.oneLine inFields

theorem splitOnce_ruleLine (rule : ProtectionRule) :
    splitOnce isWhitespace (ruleLine rule) = some ([ruleTag rule], ruleFields rule) := by
  have solid : ∀ c ∈ [ruleTag rule], isWhitespace c = false := by
    intro c mem
    rw [List.mem_singleton.mp mem]
    exact solid_ruleTag rule
  exact splitOnce_append solid (by decide) _

/-- A written rule's line reads back as that rule. -/
theorem parseLine_ruleLine {rule : ProtectionRule} (written : WellWritten rule) (number : ℕ) :
    parseLine debug number (ruleLine rule) = .ok (some rule) := by
  have noComment : ¬ (ruleLine rule = [] ∨ (ruleLine rule).head? = some '#') := by
    cases rule <;> simp [ruleLine, ruleTag]
  simp only [parseLine, trim_of_trimmed written.trimmed_ruleLine, if_neg noComment,
    splitOnce_ruleLine, trim_of_trimmed written.field.trimmed]
  cases rule with
  | pathPrefix path => simp [ruleTag, ruleFields]
  | cookie name => simp [ruleTag, ruleFields]
  | userAgent ua => simp [ruleTag, ruleFields]
  | header name value =>
      obtain ⟨-, solid, field⟩ := written
      have halves : splitOnce isWhitespace (name.toList ++ ' ' :: value.toList)
          = some (name.toList, value.toList) := splitOnce_append solid (by decide) _
      simp [ruleTag, ruleFields, halves, trim_of_trimmed field.trimmed]

/-! ## The round trip -/

theorem lines_formatRules {rules : List ProtectionRule}
    (written : ∀ rule ∈ rules, WellWritten rule) :
    lines '\n' '\r' (formatRules rules).toList = rules.map ruleLine := by
  rw [toList_formatRules]
  induction rules with
  | nil => rfl
  | cons rule rules ih =>
      have here := written rule List.mem_cons_self
      rw [List.flatMap_cons, toList_formatRule, List.append_assoc, List.singleton_append,
        lines_append_newline here.oneLine_ruleLine, List.map_cons,
        ih fun rule mem => written rule (List.mem_cons_of_mem _ mem)]
      intro last
      exact absurd (here.trimmed_ruleLine.last _ last) (by decide)

theorem parseRulesFrom_ruleLines {rules : List ProtectionRule}
    (written : ∀ rule ∈ rules, WellWritten rule) (i : ℕ) :
    parseRulesFrom debug i (rules.map ruleLine) = .ok rules := by
  induction rules generalizing i with
  | nil => rfl
  | cons rule rules ih =>
      rw [List.map_cons, parseRulesFrom, parseLine_ruleLine (written rule List.mem_cons_self),
        ih fun rule mem => written rule (List.mem_cons_of_mem _ mem)]
      rfl

theorem parseRules_of_written {rules : List ProtectionRule}
    (written : ∀ rule ∈ rules, WellWritten rule) :
    parseRules debug (formatRules rules) = .ok rules := by
  rw [parseRules, lines_formatRules written]
  exact parseRulesFrom_ruleLines written 0

/-- **The fixed rulesets.** Exactly the rules whose fields could have come from a line survive
being printed and read. -/
theorem parseRules_formatRules_iff (debug : List Char → String) (rules : List ProtectionRule) :
    parseRules debug (formatRules rules) = .ok rules ↔ ∀ rule ∈ rules, WellWritten rule :=
  ⟨written_of_parseRules, parseRules_of_written⟩

/-- **The form is lossless.** A ruleset that was read from a text is read back from the text it is
shown as. -/
theorem parseRules_formatRules (debug : List Char → String) (text : String)
    (rules : List ProtectionRule) (read : parseRules debug text = .ok rules) :
    parseRules debug (formatRules rules) = .ok rules :=
  parseRules_of_written (written_of_parseRules read)

/-- An operator's text with a comment, a return, a header with blanks inside and a tab. -/
theorem parseRules_formatRules_sample :
    parseRules String.ofList (formatRules
        [.pathPrefix "/checkout", .header "user-agent" "some bot\t1.0"])
      = .ok [.pathPrefix "/checkout", .header "user-agent" "some bot\t1.0"] :=
  parseRules_formatRules String.ofList
    "# sale\n\n  p   /checkout\r\nh user-agent \u2003 some bot\t1.0 " _ (by decide +kernel)

end WaitingRoom.Edge
