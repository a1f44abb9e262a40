import WaitingRoom.Common.Expr
import WaitingRoom.Text.Lexemes
import WaitingRoom.Text.Precedence

/-!
# Reading an expression

What the database makes of an expression's text. A condition without grouping parentheses is the
*or* of the *and*s of its clauses, and every placeholder stands for what it is bound to; a text
that is not of this form, or that refers to a placeholder that is not bound, has no reading. The
builders' texts are read back: an update as the calls that were made (`readUpdate_build`), and a
condition as the runs of its chain (`readRuns_build`).
-/

set_option autoImplicit false

namespace WaitingRoom.Expr

open Text
open Dynamo (AttributeValue Item)

/-! ## The grammar -/

/-- Words are separated by blanks; brackets, commas and equals signs stand by themselves. -/
def lexicon : Lexicon Char where
  blank c := c = ' '
  symbol c := c = '(' ∨ c = ')' ∨ c = ',' ∨ c = '='

/-- The lexemes of a text. -/
def lexemesOf (text : String) : List (List Char) := lexicon.lexemes text.toList

/-- Every name (`#`) or value (`:`) token of a text. -/
def referenced (sigil : Char) (text : String) : List String :=
  ((lexemesOf text).filter fun lexeme => lexeme.head? = some sigil).map String.ofList

/-- The words that join clauses. -/
def connectiveWord : Connective → List Char
  | .or => ['O', 'R']
  | .and => ['A', 'N', 'D']

section Reading

variable (names : Bindings String) (values : Bindings AttributeValue)

/-- What a name or a value token stands for. -/
def resolve {α : Type} (bindings : Bindings α) (token : List Char) : Option α :=
  bindings (String.ofList token)

/-- One clause of a condition. -/
def readClause : List (List Char) → Option Dynamo.Condition
  | [word, opening, path, closing] =>
      if word = "attribute_not_exists".toList ∧ opening = ['('] ∧ closing = [')'] then
        (resolve names path).map .attributeNotExists
      else none
  | [path, equals, operand] =>
      if equals = ['='] then
        (resolve names path).bind fun attr => (resolve values operand).map (.equals attr)
      else none
  | _ => none

/-- The runs of a condition between its `OR`s. -/
def readRuns (text : String) : Option (List (List Dynamo.Condition)) :=
  (cutRuns connectiveWord (lexemesOf text)).mapM fun run => run.mapM (readClause names values)

/-- The value of a condition: `AND` binds tighter than `OR`. -/
def evaluate (text : String) (item : Item) : Option Bool :=
  (readRuns names values text).map fun runs =>
    runs.any fun run => run.all fun clause => clause.holds item

/-- The brackets of `if_not_exists`, which name the path again. -/
def readIfNotExists (path : List Char) :
    List (List Char) → Option (UpdateCall × List (List Char))
  | opening :: inner :: comma :: operand :: closing :: rest =>
      if opening = ['('] ∧ inner = path ∧ comma = [','] ∧ closing = [')'] then
        (resolve names path).bind fun attr =>
          (resolve values operand).map fun value => (.setIfNotExists attr value, rest)
      else none
  | _ => none

/-- One clause of a `SET` section, and what follows it. -/
def readSet : List (List Char) → Option (UpdateCall × List (List Char))
  | path :: equals :: word :: rest =>
      if equals ≠ ['='] then none
      else if word = "if_not_exists".toList then readIfNotExists names values path rest
      else
        (resolve names path).bind fun attr =>
          (resolve values word).map fun value => (.set attr value, rest)
  | _ => none

/-- One clause of an `ADD` section, and what follows it. -/
def readAdd : List (List Char) → Option (UpdateCall × List (List Char))
  | path :: operand :: rest =>
      (resolve names path).bind fun attr =>
        (resolve values operand).map fun value => (.add attr value, rest)
  | _ => none

/-- An `ADD` section, if there is one, to the end of the text. -/
def readAddSection : List (List Char) → Option (List UpdateCall)
  | [] => some []
  | keyword :: rest =>
      if keyword = "ADD".toList then
        (readItems (readAdd names values) [','] rest.length rest).bind fun read =>
          if read.2 = [] then some read.1 else none
      else none

/-- A `SET` section, if there is one, and an `ADD` section, if there is one. -/
def readSections : List (List Char) → Option (List UpdateCall)
  | [] => some []
  | keyword :: rest =>
      if keyword = "SET".toList then
        (readItems (readSet names values) [','] rest.length rest).bind fun read =>
          (readAddSection names values read.2).map fun adds => read.1 ++ adds
      else readAddSection names values (keyword :: rest)

/-- The actions of an update. -/
def readUpdate (text : String) : Option (List UpdateCall) :=
  readSections names values (lexemesOf text)

end Reading

/-! ## The lexemes of a placeholder -/

theorem inWord_of_isDigit {c : Char} (digit : c.isDigit) : lexicon.inWord c := by
  have inside := Char.isDigit_iff_toNat.mp digit
  have other : ∀ d : Char, ¬ d.isDigit → c ≠ d := fun d not same => not (same ▸ digit)
  simp only [Lexicon.inWord, lexicon, Bool.and_eq_true, Bool.not_eq_true', decide_eq_false_iff_not]
  exact ⟨other _ (by decide), by
    rintro (same | same | same | same) <;> exact other _ (by decide) same⟩

/-- A placeholder is one lexeme. -/
theorem lexemes_slotName {mark : String} (nonempty : mark.toList ≠ [])
    (inner : mark.toList.all lexicon.inWord) (slot : ℕ) :
    lexicon.lexemes (slotName mark slot).toList = [(slotName mark slot).toList] := by
  rw [slotName, String.toList_append]
  refine Lexicon.lexemes_word (List.append_ne_nil_of_left_ne_nil nonempty _) fun c mem => ?_
  rcases List.mem_append.mp mem with inMark | inDigits
  · exact List.all_eq_true.mp inner c inMark
  · rw [Nat.toList_repr] at inDigits
    exact inWord_of_isDigit (Nat.isDigit_of_mem_toDigits (by decide) (by decide) inDigits)

/-! ## The lexemes of a text with literals -/

theorem lexemesOf_append {left right : String}
    (cut : left.toList.getLast?.any lexicon.inWord = false ∨
      right.toList.head?.any lexicon.inWord = false) :
    lexemesOf (left ++ right) = lexemesOf left ++ lexemesOf right := by
  rw [lexemesOf, String.toList_append, Lexicon.lexemes_append cut]
  rfl

/-- A literal that neither continues a word nor is continued. -/
def Separates (literal : String) : Prop :=
  literal.toList ≠ [] ∧ literal.toList.head?.any lexicon.inWord = false ∧
    literal.toList.getLast?.any lexicon.inWord = false

instance (literal : String) : Decidable (Separates literal) := inferInstanceAs (Decidable (_ ∧ _))

theorem lexemesOf_literal {literal : String} (separates : Separates literal) (left right : String) :
    lexemesOf (left ++ literal ++ right) = lexemesOf left ++ lexemesOf literal ++ lexemesOf right := by
  obtain ⟨nonempty, starts, ends⟩ := separates
  have last : (left ++ literal).toList.getLast? = literal.toList.getLast? := by
    rw [String.toList_append, List.getLast?_append_of_ne_nil _ nonempty]
  rw [lexemesOf_append (.inl (by rw [last, ends])), lexemesOf_append (.inr starts)]

/-! ## The lexemes of a clause -/

/-- The lexemes of an update's clause. -/
def updateTokens (slotted : UpdateCall × ℕ) : List (List Char) :=
  let name := (slotName "#u" slotted.2).toList
  let operand := (slotName ":u" slotted.2).toList
  match slotted.1 with
  | .set _ _ => [name, ['='], operand]
  | .setIfNotExists _ _ =>
      [name, ['='], "if_not_exists".toList, ['('], name, [','], operand, [')']]
  | .add _ _ => [name, operand]

theorem lexemesOf_name (slot : ℕ) : lexemesOf (slotName "#u" slot) = [(slotName "#u" slot).toList] :=
  lexemes_slotName (by decide) (by decide) slot

theorem lexemesOf_value (slot : ℕ) : lexemesOf (slotName ":u" slot) = [(slotName ":u" slot).toList] :=
  lexemes_slotName (by decide) (by decide) slot

theorem lexemesOf_clause (slotted : UpdateCall × ℕ) :
    lexemesOf (slotted.1.clause slotted.2) = updateTokens slotted := by
  obtain ⟨call, slot⟩ := slotted
  cases call with
  | set attr value =>
      rw [UpdateCall.clause, lexemesOf_literal (by decide), lexemesOf_name, lexemesOf_value]
      rfl
  | setIfNotExists attr value =>
      rw [UpdateCall.clause, lexemesOf_append (.inr (by decide)), lexemesOf_literal (by decide),
        lexemesOf_literal (by decide), lexemesOf_name, lexemesOf_value]
      rfl
  | add attr value =>
      rw [UpdateCall.clause, lexemesOf_literal (by decide), lexemesOf_name, lexemesOf_value]
      rfl

theorem lexemesOf_joinTexts {ι : Type} {write : ι → String} {tokens : ι → List (List Char)}
    (reads : ∀ source, lexemesOf (write source) = tokens source) (sources : List ι) :
    lexemesOf (joinTexts ", " (sources.map write)) = separated [','] (sources.map tokens) := by
  induction sources with
  | nil => rfl
  | cons source sources ih =>
      cases sources with
      | nil => rw [List.map_singleton, joinTexts, reads, List.map_singleton, separated]
      | cons next sources =>
          rw [List.map_cons, List.map_cons] at ih ⊢
          rw [joinTexts, lexemesOf_literal (by decide), ih, reads, List.append_assoc]
          rfl

/-- The lexemes of a condition's clause behind its connective. -/
def conditionTokens (slotted : ConditionCall × ℕ) : List (List Char) :=
  [(slotName "#c" (Condition.nameSlot slotted.2)).toList, ['='],
    (slotName ":c" (Condition.valueSlot slotted.2)).toList]

/-- How a call's clause is joined. -/
def ConditionCall.connective : ConditionCall → Connective
  | .orEquals _ _ => .or
  | .andEquals _ _ => .and

theorem lexemesOf_clauseText (slotted : ConditionCall × ℕ) :
    lexemesOf (Condition.clauseText slotted)
      = connectiveWord slotted.1.connective :: conditionTokens slotted := by
  obtain ⟨call, index⟩ := slotted
  have name : lexemesOf (slotName "#c" (Condition.nameSlot index))
      = [(slotName "#c" (Condition.nameSlot index)).toList] :=
    lexemes_slotName (by decide) (by decide) _
  have operand : lexemesOf (slotName ":c" (Condition.valueSlot index))
      = [(slotName ":c" (Condition.valueSlot index)).toList] :=
    lexemes_slotName (by decide) (by decide) _
  have word : call.word.toList.getLast?.any lexicon.inWord = false := by
    cases call with
    | orEquals attr value => exact (by decide : " OR ".toList.getLast?.any lexicon.inWord = false)
    | andEquals attr value => exact (by decide : " AND ".toList.getLast?.any lexicon.inWord = false)
  have connective : lexemesOf call.word = [connectiveWord call.connective] := by
    cases call with
    | orEquals attr value => exact (by decide : lexemesOf " OR " = [connectiveWord .or])
    | andEquals attr value => exact (by decide : lexemesOf " AND " = [connectiveWord .and])
  rw [Condition.clauseText, lexemesOf_literal (by decide), lexemesOf_append (.inl word), name, operand,
    connective]
  rfl

theorem lexemesOf_clauses (slotted : List (ConditionCall × ℕ)) (front : String) :
    lexemesOf ((slotted.map Condition.clauseText).foldl (· ++ ·) front)
      = chainTokens connectiveWord (lexemesOf front)
        (slotted.map fun slotted => (slotted.1.connective, conditionTokens slotted)) := by
  induction slotted generalizing front with
  | nil => exact (List.append_nil _).symm
  | cons first slotted ih =>
      have starts : (Condition.clauseText first).toList.head?.any lexicon.inWord = false := by
        obtain ⟨call, index⟩ := first
        cases call <;> simp [Condition.clauseText, ConditionCall.word, lexicon, Lexicon.inWord]
      rw [List.map_cons, List.foldl_cons, ih, lexemesOf_append (.inr starts), lexemesOf_clauseText]
      simp [chainTokens]

/-! ## Reading an update back -/

section Update

variable {calls : List UpdateCall} {update : Update}

theorem resolve_toList {α : Type} (bindings : Bindings α) (text : String) :
    resolve bindings text.toList = bindings text := by
  rw [resolve, String.ofList_toList]

/-- A call's placeholders stand for what the call was given. -/
theorem Update.Built.resolves (built : Update.Built calls update) {slotted : UpdateCall × ℕ}
    (mem : slotted ∈ calls.zipIdx) :
    resolve update.names (slotName "#u" slotted.2).toList = some slotted.1.attr ∧
      resolve update.values (slotName ":u" slotted.2).toList = some slotted.1.value := by
  rw [resolve_toList, resolve_toList]
  exact ⟨built.names.bound (List.mem_map_of_mem mem), built.values.bound (List.mem_map_of_mem mem)⟩

theorem readSet_tokens (built : Update.Built calls update) {slotted : UpdateCall × ℕ}
    (mem : slotted ∈ Update.inSection true calls) (rest : List (List Char)) :
    readSet update.names update.values (updateTokens slotted ++ rest) = some (slotted.1, rest) := by
  obtain ⟨inside, sets⟩ := List.mem_filter.mp mem
  obtain ⟨name, operand⟩ := built.resolves inside
  obtain ⟨call, slot⟩ := slotted
  have other : (slotName ":u" slot).toList ≠ "if_not_exists".toList := by simp [slotName]
  cases call with
  | set attr value =>
      rw [updateTokens, List.cons_append, List.cons_append, List.cons_append, readSet,
        if_neg (fun differ => differ rfl), if_neg other, name, operand]
      rfl
  | setIfNotExists attr value =>
      simp only [updateTokens, List.cons_append]
      rw [readSet, if_neg (fun differ => differ rfl), if_pos rfl, readIfNotExists,
        if_pos ⟨rfl, rfl, rfl, rfl⟩, name, operand]
      rfl
  | add attr value => simp [UpdateCall.sets] at sets

theorem readAdd_tokens (built : Update.Built calls update) {slotted : UpdateCall × ℕ}
    (mem : slotted ∈ Update.inSection false calls) (rest : List (List Char)) :
    readAdd update.names update.values (updateTokens slotted ++ rest) = some (slotted.1, rest) := by
  obtain ⟨inside, sets⟩ := List.mem_filter.mp mem
  obtain ⟨name, operand⟩ := built.resolves inside
  obtain ⟨call, slot⟩ := slotted
  cases call with
  | set attr value => simp [UpdateCall.sets] at sets
  | setIfNotExists attr value => simp [UpdateCall.sets] at sets
  | add attr value =>
      rw [updateTokens, List.cons_append, List.cons_append, readAdd, name, operand]
      rfl

/-- The lexemes of one section. -/
def sectionTokens (keyword : List Char) (slotted : List (UpdateCall × ℕ)) : List (List Char) :=
  if slotted = [] then [] else keyword :: separated [','] (slotted.map updateTokens)

theorem sectionTokens_eq_nil_or (keyword : List Char) (slotted : List (UpdateCall × ℕ)) :
    (sectionTokens keyword slotted).head? = none ∨
      (sectionTokens keyword slotted).head? = some keyword := by
  rw [sectionTokens]
  split_ifs
  · exact .inl rfl
  · exact .inr rfl

/-- The text of one section. -/
theorem lexemesOf_section {keyword : String} {token : List Char}
    (separates : keyword.toList.getLast?.any lexicon.inWord = false)
    (word : lexemesOf keyword = [token]) (slotted : List (UpdateCall × ℕ)) :
    lexemesOf (if (slotted.map fun slotted => slotted.1.clause slotted.2) = [] then ""
        else keyword ++ joinTexts ", " (slotted.map fun slotted => slotted.1.clause slotted.2))
      = sectionTokens token slotted := by
  rw [sectionTokens]
  by_cases none : slotted = []
  · rw [none, List.map_nil, if_pos rfl, if_pos rfl]
    rfl
  · rw [if_neg none, if_neg (fun empty => none (List.map_eq_nil_iff.mp empty)),
      lexemesOf_append (.inl separates), word, lexemesOf_joinTexts lexemesOf_clause]
    rfl

theorem lexemesOf_build (built : Update.Built calls update) :
    lexemesOf update.build.expression =
      sectionTokens "SET".toList (Update.inSection true calls) ++
        sectionTokens "ADD".toList (Update.inSection false calls) := by
  have setWord : lexemesOf "SET " = ["SET".toList] := by decide
  have addWord : lexemesOf "ADD " = ["ADD".toList] := by decide
  have sets := lexemesOf_section (by decide) setWord (Update.inSection true calls)
  have adds := lexemesOf_section (by decide) addWord (Update.inSection false calls)
  rw [← built.setClauses] at sets
  rw [← built.addClauses] at adds
  rw [← sets, ← adds, Update.build]
  dsimp only
  by_cases none : update.addClauses = []
  · rw [none, if_pos rfl, if_pos rfl, String.append_empty]
    exact (List.append_nil _).symm
  · rw [if_neg none, if_neg none]
    generalize (if update.setClauses = [] then "" else "SET " ++ joinTexts ", " update.setClauses)
      = front
    by_cases empty : front = ""
    · rw [empty, if_pos rfl, String.empty_append, String.empty_append]
      rfl
    · rw [if_neg empty, String.append_assoc, ← String.append_assoc,
        lexemesOf_literal (by decide), show lexemesOf " " = [] from rfl, List.append_nil]

theorem updateTokens_ne_nil (slotted : UpdateCall × ℕ) : updateTokens slotted ≠ [] := by
  obtain ⟨call, slot⟩ := slotted
  cases call <;> exact List.cons_ne_nil _ _

/-- The clauses of a section are read one by one. -/
theorem readItems_section {item : List (List Char) → Option (UpdateCall × List (List Char))}
    {slotted : List (UpdateCall × ℕ)} {after : List (List Char)}
    (reads : ∀ source ∈ slotted, ∀ rest,
      item (updateTokens source ++ rest) = some (source.1, rest))
    (nonempty : slotted ≠ []) (ends : after.head? ≠ some [',']) :
    readItems item [','] (separated [','] (slotted.map updateTokens) ++ after).length
        (separated [','] (slotted.map updateTokens) ++ after)
      = some (slotted.map Prod.fst, after) := by
  have solid : ∀ item ∈ slotted.map updateTokens, item ≠ [] := by
    intro item mem
    obtain ⟨source, -, rfl⟩ := List.mem_map.mp mem
    exact updateTokens_ne_nil source
  have enough : (slotted.map updateTokens).length
      ≤ (separated [','] (slotted.map updateTokens)).length := length_le_separated solid
  rw [List.length_map] at enough
  refine readItems_separated reads nonempty ends ?_
  rw [List.length_append]
  omega

theorem readAddSection_tokens (built : Update.Built calls update) :
    readAddSection update.names update.values
        (sectionTokens "ADD".toList (Update.inSection false calls))
      = some ((Update.inSection false calls).map Prod.fst) := by
  rw [sectionTokens]
  split_ifs with none
  · rw [none]
    rfl
  · have noneAfter : ([] : List (List Char)).head? ≠ some [','] := nofun
    have items :=
      readItems_section (fun _ mem rest => readAdd_tokens built mem rest) none noneAfter
    rw [List.append_nil] at items
    rw [readAddSection, if_pos rfl, items]
    rfl

theorem map_fst_inSection (sets : Bool) (calls : List UpdateCall) :
    (Update.inSection sets calls).map Prod.fst = calls.filter fun call => call.sets = sets := by
  have whole : calls.zipIdx.map Prod.fst = calls := List.zipIdx_map_fst 0 calls
  conv_rhs => rw [← whole]
  rw [List.filter_map]
  rfl

theorem readSections_of_head {names : Bindings String} {values : Bindings AttributeValue}
    {tokens : List (List Char)} (other : tokens.head? ≠ some "SET".toList) :
    readSections names values tokens = readAddSection names values tokens := by
  cases tokens with
  | nil => rfl
  | cons keyword rest => exact if_neg fun same => other (congrArg some same)

/-- **An update is read back** as the calls that were made: those that set, then those that add. -/
theorem readUpdate_build (built : Update.Built calls update) :
    readUpdate update.names update.values update.build.expression
      = some ((calls.filter fun call => call.sets) ++ calls.filter fun call => !call.sets) := by
  have adds := readAddSection_tokens built
  have setCalls := map_fst_inSection true calls
  have addCalls := map_fst_inSection false calls
  simp only [Bool.decide_eq_true, Bool.decide_eq_false] at setCalls addCalls
  have addHead := sectionTokens_eq_nil_or "ADD".toList (Update.inSection false calls)
  rw [readUpdate, lexemesOf_build built, ← setCalls, ← addCalls]
  generalize sectionTokens "ADD".toList (Update.inSection false calls) = after at adds addHead
  by_cases none : Update.inSection true calls = []
  · rw [none, sectionTokens, if_pos rfl, List.nil_append, readSections_of_head, adds]
    · rfl
    · rcases addHead with empty | add <;> simp [*]
  · have ends : after.head? ≠ some [','] := by
      rcases addHead with empty | add <;> simp [*]
    have items := readItems_section (fun _ mem rest => readSet_tokens built mem rest) none ends
    rw [sectionTokens, if_neg none, List.cons_append, readSections, if_pos rfl, items,
      Option.bind_some, adds]
    rfl

end Update

/-! ## Reading a condition back -/

section Condition

variable {attr : String} {calls : List ConditionCall} {condition : Condition}

/-- The clause of the first method of a chain. -/
def firstTokens : List (List Char) :=
  ["attribute_not_exists".toList, ['('], (slotName "#c" 0).toList, [')']]

/-- What a chain's clauses say. -/
def firstClause (attr : String) : Dynamo.Condition := .attributeNotExists attr
def clauseOf (call : ConditionCall) : Dynamo.Condition := .equals call.attr call.value

/-- The connectives and the clauses of a chain behind its first. -/
def clausesOf (calls : List ConditionCall) : List (Connective × Dynamo.Condition) :=
  calls.map fun call => (call.connective, clauseOf call)

theorem lexemesOf_chain (built : Condition.Built attr calls condition) :
    lexemesOf condition.expression = chainTokens connectiveWord firstTokens
      (calls.zipIdx.map fun slotted => (slotted.1.connective, conditionTokens slotted)) := by
  have slot : lexemesOf (slotName "#c" 0) = [(slotName "#c" 0).toList] :=
    lexemes_slotName (by decide) (by decide) 0
  have front : lexemesOf ("attribute_not_exists(" ++ slotName "#c" 0 ++ ")") = firstTokens := by
    rw [lexemesOf_append (.inr (by decide)), lexemesOf_append (.inl (by decide)), slot]
    rfl
  rw [built.expression, lexemesOf_clauses, front]

theorem connectiveWord_not_mem (connective : Connective) {slotted : ConditionCall × ℕ} :
    connectiveWord connective ∉ conditionTokens slotted := by
  cases connective <;> simp [conditionTokens, connectiveWord, slotName]

theorem connectiveWord_not_mem_first (connective : Connective) :
    connectiveWord connective ∉ firstTokens := by
  cases connective <;> decide

/-- A clause's placeholders stand for what its call was given. -/
theorem readClause_tokens (built : Condition.Built attr calls condition)
    {slotted : ConditionCall × ℕ} (mem : slotted ∈ calls.zipIdx) :
    readClause condition.names condition.values (conditionTokens slotted)
      = some (clauseOf slotted.1) := by
  have name := built.names.bound (List.mem_cons_of_mem _ (List.mem_map_of_mem mem))
  have operand := built.values.bound (List.mem_map_of_mem mem)
  rw [conditionTokens, readClause, if_pos rfl, resolve_toList, resolve_toList, name, operand]
  rfl

theorem readClause_first (built : Condition.Built attr calls condition) :
    readClause condition.names condition.values firstTokens = some (firstClause attr) := by
  rw [firstTokens, readClause, if_pos ⟨rfl, rfl, rfl⟩, resolve_toList,
    built.names.bound List.mem_cons_self]
  rfl

theorem mapM_map_of_some {α β γ : Type} {read : β → Option γ} {write : α → β} {value : α → γ}
    {sources : List α} (reads : ∀ source ∈ sources, read (write source) = some (value source)) :
    (sources.map write).mapM read = some (sources.map value) := by
  induction sources with
  | nil => rfl
  | cons source sources ih =>
      rw [List.map_cons, List.mapM_cons, reads source List.mem_cons_self,
        ih fun other mem => reads other (List.mem_cons_of_mem _ mem)]
      rfl

/-- The tokens and the clause of one part of a chain, the first method's or a call's. -/
def partTokens : Option (ConditionCall × ℕ) → List (List Char)
  | none => firstTokens
  | some slotted => conditionTokens slotted
def partClause (attr : String) : Option (ConditionCall × ℕ) → Dynamo.Condition
  | none => firstClause attr
  | some slotted => clauseOf slotted.1

/-- **A condition is read back** as the runs of its chain. -/
theorem readRuns_build (built : Condition.Built attr calls condition) :
    readRuns condition.names condition.values condition.expression
      = some (runs (firstClause attr) (clausesOf calls)) := by
  let parts : List (Connective × Option (ConditionCall × ℕ)) :=
    calls.zipIdx.map fun slotted => (slotted.1.connective, some slotted)
  have tokens : calls.zipIdx.map (fun slotted => (slotted.1.connective, conditionTokens slotted))
      = parts.map fun part => (part.1, partTokens part.2) := by
    rw [List.map_map]
    rfl
  have clauses : clausesOf calls = parts.map fun part => (part.1, partClause attr part.2) := by
    rw [List.map_map, clausesOf]
    conv_lhs => rw [← List.zipIdx_map_fst 0 calls, List.map_map]
    rfl
  have reads : ∀ run ∈ runs none parts, (run.map partTokens).mapM
      (readClause condition.names condition.values) = some (run.map (partClause attr)) := by
    intro run mem
    refine mapM_map_of_some fun source inRun => ?_
    have inChain : source ∈ (runs none parts).flatten := List.mem_flatten.mpr ⟨run, mem, inRun⟩
    rw [flatten_runs, List.map_map] at inChain
    rcases List.mem_cons.mp inChain with rfl | later
    · exact readClause_first built
    · obtain ⟨slotted, inside, rfl⟩ := List.mem_map.mp later
      exact readClause_tokens built inside
  have distinct : connectiveWord .or ≠ connectiveWord .and := by decide
  have cut := cutRuns_chainTokens distinct firstTokens
    (parts.map fun part => (part.1, partTokens part.2)) connectiveWord_not_mem_first (by
      intro part mem connective
      obtain ⟨source, inside, rfl⟩ := List.mem_map.mp mem
      obtain ⟨slotted, -, rfl⟩ := List.mem_map.mp inside
      exact connectiveWord_not_mem connective)
  rw [readRuns, lexemesOf_chain built, tokens, cut,
    show firstTokens = partTokens none from rfl, runs_map, mapM_map_of_some reads, clauses,
    show firstClause attr = partClause attr none from rfl, runs_map]

/-- The value of a condition is that of its chain where *and* binds tighter. -/
theorem evaluate_build (built : Condition.Built attr calls condition) (item : Item) :
    evaluate condition.names condition.values condition.expression item
      = some (tighter (fun clause => clause.holds item) (firstClause attr) (clausesOf calls)) := by
  rw [evaluate, readRuns_build built]
  rfl

end Condition

end WaitingRoom.Expr
