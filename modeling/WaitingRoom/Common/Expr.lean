import WaitingRoom.Common.Arithmetic
import WaitingRoom.Dynamo.Item
import Mathlib.Data.List.Induction

/-!
# Expression builders

An update and a condition travel as text that refers to attributes and values by placeholders, with
a map of what each placeholder is bound to. A builder allocates its placeholders from a counter. The
state a builder is in after any calls is given by the calls alone: the counter (`Update.Built`,
`Condition.Built`), the clauses, and the bindings, which are numbered entries (`Numbered`).
-/

set_option autoImplicit false

namespace WaitingRoom.Expr

open Dynamo (AttributeValue)

/-! ## Bindings -/

/-- What each placeholder is bound to. -/
abbrev Bindings (α : Type) := String → Option α

namespace Bindings

variable {α : Type}

def empty : Bindings α := fun _ => none

def insert (bindings : Bindings α) (placeholder : String) (value : α) : Bindings α :=
  fun other => if other = placeholder then some value else bindings other

/-- Insert every binding of another map. -/
def extend (bindings other : Bindings α) : Bindings α :=
  fun placeholder => (other placeholder).or (bindings placeholder)

theorem insert_self (bindings : Bindings α) (placeholder : String) (value : α) :
    bindings.insert placeholder value placeholder = some value := if_pos rfl

theorem insert_of_ne {placeholder other : String} (different : other ≠ placeholder)
    (bindings : Bindings α) (value : α) :
    bindings.insert placeholder value other = bindings other := if_neg different

end Bindings

/-! ## Slots -/

/-- The placeholder of a slot. -/
def slotName (mark : String) (slot : ℕ) : String := mark ++ slot.repr

theorem slotName_inj {mark : String} {slot other : ℕ} :
    slotName mark slot = slotName mark other ↔ slot = other := by
  refine ⟨fun same => ?_, fun same => same ▸ rfl⟩
  rw [slotName, slotName, String.append_right_inj] at same
  have digits := congrArg (fun text => Nat.ofDigitChars 10 text.toList 0) same
  simpa only [Nat.toList_repr, Nat.ofDigitChars_ten_toDigits] using digits

/-- The placeholder after this one. -/
def nextSlot (slot : ℕ) : ℕ := saturatingAdd slot 1

/-- The bindings are exactly these numbered entries. -/
def Numbered {α : Type} (mark : String) (entries : List (ℕ × α)) (bindings : Bindings α) : Prop :=
  ∀ placeholder value, bindings placeholder = some value ↔
    ∃ slot, (slot, value) ∈ entries ∧ placeholder = slotName mark slot

section Numbered

variable {α : Type} {mark : String} {entries : List (ℕ × α)} {bindings : Bindings α}

theorem numbered_empty : Numbered mark [] (Bindings.empty : Bindings α) := by
  intro placeholder value
  refine iff_of_false nofun ?_
  rintro ⟨slot, mem, -⟩
  exact List.not_mem_nil mem

/-- Binding a fresh slot adds its entry. -/
theorem Numbered.insert (numbered : Numbered mark entries bindings) {slot : ℕ}
    (fresh : ∀ entry ∈ entries, entry.1 ≠ slot) (value : α) :
    Numbered mark (entries ++ [(slot, value)]) (bindings.insert (slotName mark slot) value) := by
  intro placeholder found
  by_cases here : placeholder = slotName mark slot
  · subst here
    rw [Bindings.insert_self]
    constructor
    · intro same
      exact ⟨slot, by simp [Option.some.inj same], rfl⟩
    · rintro ⟨other, mem, same⟩
      obtain rfl := slotName_inj.mp same
      rcases List.mem_append.mp mem with old | new
      · exact absurd rfl (fresh _ old)
      · rw [(Prod.mk.inj (List.mem_singleton.mp new)).2]
  · rw [Bindings.insert_of_ne here, numbered placeholder found]
    constructor
    · rintro ⟨other, mem, same⟩
      exact ⟨other, List.mem_append_left _ mem, same⟩
    · rintro ⟨other, mem, same⟩
      rcases List.mem_append.mp mem with old | new
      · exact ⟨other, old, same⟩
      · rw [(Prod.mk.inj (List.mem_singleton.mp new)).1] at same
        exact absurd same here

/-- An entry's placeholder is bound to its value. -/
theorem Numbered.bound (numbered : Numbered mark entries bindings) {slot : ℕ} {value : α}
    (mem : (slot, value) ∈ entries) : bindings (slotName mark slot) = some value :=
  (numbered _ _).mpr ⟨slot, mem, rfl⟩

end Numbered

/-! ## Expressions -/

/-- An expression with everything it needs to be interpreted. -/
structure Expression where
  expression : String
  names : Bindings String
  values : Bindings AttributeValue

/-- The most bytes a text may have. -/
def maxTextBytes : ℕ := 2 ^ 63 - 1

/-- The expression is one that a program can hold. -/
def Expression.Fits (built : Expression) : Prop := built.expression.utf8ByteSize ≤ maxTextBytes

/-! ## Updates -/

/-- The builder of an update. -/
structure Update where
  setClauses : List String
  addClauses : List String
  names : Bindings String
  values : Bindings AttributeValue
  next : ℕ

/-- `slice::join`. -/
def joinTexts (separator : String) : List String → String
  | [] => ""
  | [text] => text
  | text :: other :: texts => text ++ separator ++ joinTexts separator (other :: texts)

namespace Update

def new : Update where
  setClauses := []
  addClauses := []
  names := Bindings.empty
  values := Bindings.empty
  next := 0

/-- Allocate a name and the value that goes with it. -/
def bind (update : Update) (attr : String) (value : AttributeValue) : Update × String × String :=
  let name := slotName "#u" update.next
  let placeholder := slotName ":u" update.next
  ({ update with
      next := nextSlot update.next
      names := update.names.insert name attr
      values := update.values.insert placeholder value }, name, placeholder)

/-- `SET <attr> = <value>`. -/
def set (update : Update) (attr : String) (value : AttributeValue) : Update :=
  let (update, name, placeholder) := update.bind attr value
  { update with setClauses := update.setClauses ++ [name ++ " = " ++ placeholder] }

/-- `SET <attr> = if_not_exists(<attr>, <value>)`. -/
def setIfNotExists (update : Update) (attr : String) (value : AttributeValue) : Update :=
  let (update, name, placeholder) := update.bind attr value
  { update with
    setClauses :=
      update.setClauses ++ [name ++ " = if_not_exists(" ++ name ++ ", " ++ placeholder ++ ")"] }

/-- `ADD <attr> <value>`. -/
def add (update : Update) (attr : String) (value : AttributeValue) : Update :=
  let (update, name, placeholder) := update.bind attr value
  { update with addClauses := update.addClauses ++ [name ++ " " ++ placeholder] }

/-- The expression and its bindings. -/
def build (update : Update) : Expression :=
  let sets := if update.setClauses = [] then "" else "SET " ++ joinTexts ", " update.setClauses
  let adds :=
    if update.addClauses = [] then ""
    else (if sets = "" then "" else " ") ++ "ADD " ++ joinTexts ", " update.addClauses
  { expression := sets ++ adds, names := update.names, values := update.values }

end Update

/-! ## Conditions -/

/-- The builder of a condition. -/
structure Condition where
  expression : String
  names : Bindings String
  values : Bindings AttributeValue
  next : ℕ

namespace Condition

def bindName (condition : Condition) (attr : String) : Condition × String :=
  let name := slotName "#c" condition.next
  ({ condition with
      next := nextSlot condition.next
      names := condition.names.insert name attr }, name)

def bindValue (condition : Condition) (value : AttributeValue) : Condition × String :=
  let placeholder := slotName ":c" condition.next
  ({ condition with
      next := nextSlot condition.next
      values := condition.values.insert placeholder value }, placeholder)

/-- `attribute_not_exists(<attr>)`. -/
def attributeNotExists (attr : String) : Condition :=
  let empty : Condition := ⟨"", Bindings.empty, Bindings.empty, 0⟩
  let (condition, name) := empty.bindName attr
  { condition with expression := "attribute_not_exists(" ++ name ++ ")" }

/-- Widen the condition with `OR <attr> = <value>`. -/
def orEquals (condition : Condition) (attr : String) (value : AttributeValue) : Condition :=
  let (condition, name) := condition.bindName attr
  let (condition, placeholder) := condition.bindValue value
  { condition with
    expression := condition.expression ++ " OR " ++ name ++ " = " ++ placeholder }

/-- Narrow the condition with `AND <attr> = <value>`. -/
def andEquals (condition : Condition) (attr : String) (value : AttributeValue) : Condition :=
  let (condition, name) := condition.bindName attr
  let (condition, placeholder) := condition.bindValue value
  { condition with
    expression := condition.expression ++ " AND " ++ name ++ " = " ++ placeholder }

/-- The expression and its bindings. -/
def build (condition : Condition) : Expression where
  expression := condition.expression
  names := condition.names
  values := condition.values

end Condition

/-! ## Calls on an update -/

/-- A call on the builder of an update. -/
inductive UpdateCall where
  | set (attr : String) (value : AttributeValue)
  | setIfNotExists (attr : String) (value : AttributeValue)
  | add (attr : String) (value : AttributeValue)

namespace UpdateCall

def attr : UpdateCall → String
  | .set attr _ | .setIfNotExists attr _ | .add attr _ => attr

def value : UpdateCall → AttributeValue
  | .set _ value | .setIfNotExists _ value | .add _ value => value

/-- Whether the call's clause goes into the `SET` section. -/
def sets : UpdateCall → Bool
  | .set _ _ | .setIfNotExists _ _ => true
  | .add _ _ => false

/-- The clause of a call that was given a slot. -/
def clause (slot : ℕ) : UpdateCall → String
  | .set _ _ => slotName "#u" slot ++ " = " ++ slotName ":u" slot
  | .setIfNotExists _ _ =>
      slotName "#u" slot ++ " = if_not_exists(" ++ slotName "#u" slot ++ ", " ++
        slotName ":u" slot ++ ")"
  | .add _ _ => slotName "#u" slot ++ " " ++ slotName ":u" slot

end UpdateCall

namespace Update

def apply (update : Update) : UpdateCall → Update
  | .set attr value => update.set attr value
  | .setIfNotExists attr value => update.setIfNotExists attr value
  | .add attr value => update.add attr value

/-- The builder after a sequence of calls. -/
def run (calls : List UpdateCall) : Update := calls.foldl apply new

theorem run_append_singleton (calls : List UpdateCall) (call : UpdateCall) :
    run (calls ++ [call]) = (run calls).apply call := by
  rw [run, List.foldl_append, List.foldl_cons, List.foldl_nil, run]

/-- What one call does to the builder. -/
theorem apply_eq (update : Update) (call : UpdateCall) :
    update.apply call =
      { setClauses :=
          if call.sets then update.setClauses ++ [call.clause update.next] else update.setClauses
        addClauses :=
          if call.sets then update.addClauses else update.addClauses ++ [call.clause update.next]
        names := update.names.insert (slotName "#u" update.next) call.attr
        values := update.values.insert (slotName ":u" update.next) call.value
        next := nextSlot update.next } := by
  cases call <;> rfl

/-- The calls whose clauses go into one section, with their slots. -/
def inSection (sets : Bool) (calls : List UpdateCall) : List (UpdateCall × ℕ) :=
  calls.zipIdx.filter fun slotted => slotted.1.sets = sets

theorem inSection_append_singleton (sets : Bool) (calls : List UpdateCall) (call : UpdateCall) :
    inSection sets (calls ++ [call]) =
      if call.sets = sets then inSection sets calls ++ [(call, calls.length)]
      else inSection sets calls := by
  rw [inSection, List.zipIdx_append, List.filter_append, List.zipIdx_singleton, Nat.zero_add,
    List.filter_cons, List.filter_nil]
  split_ifs <;> simp_all [inSection]

/-- A builder as the calls leave it. -/
structure Built (calls : List UpdateCall) (update : Update) : Prop where
  next : update.next = calls.length
  setClauses : update.setClauses = (inSection true calls).map fun slotted => slotted.1.clause slotted.2
  addClauses : update.addClauses = (inSection false calls).map fun slotted => slotted.1.clause slotted.2
  names : Numbered "#u" (calls.zipIdx.map fun slotted => (slotted.2, slotted.1.attr)) update.names
  values : Numbered ":u" (calls.zipIdx.map fun slotted => (slotted.2, slotted.1.value)) update.values

/-- The slots of a call sequence lie below its length. -/
theorem slot_ne_length {α : Type} (calls : List UpdateCall) (read : UpdateCall → α) :
    ∀ entry ∈ calls.zipIdx.map fun slotted => (slotted.2, read slotted.1),
      entry.1 ≠ calls.length := by
  intro entry mem
  obtain ⟨⟨call, slot⟩, inside, rfl⟩ := List.mem_map.mp mem
  exact Nat.ne_of_lt (List.mem_zipIdx' inside).1

/-- One more call, if its slot can be counted past. -/
theorem Built.apply {calls : List UpdateCall} {update : Update} (built : Built calls update)
    (inside : calls.length < u64Max) (call : UpdateCall) :
    Built (calls ++ [call]) (update.apply call) := by
  rw [apply_eq]
  refine ⟨?_, ?_, ?_, ?_, ?_⟩
  · rw [built.next, nextSlot, List.length_append, List.length_singleton]
    exact saturatingAdd_of_lt (by rw [u64Max] at inside; omega)
  · rw [built.setClauses, built.next, inSection_append_singleton]
    split_ifs
    · rw [List.map_append, List.map_singleton]
    · rfl
  · rw [built.addClauses, built.next, inSection_append_singleton]
    cases call.sets with
    | true => rfl
    | false =>
        rw [if_pos rfl, List.map_append]
        rfl
  · rw [built.next, List.zipIdx_append, List.map_append]
    simpa using built.names.insert (slot_ne_length calls UpdateCall.attr) call.attr
  · rw [built.next, List.zipIdx_append, List.map_append]
    simpa using built.values.insert (slot_ne_length calls UpdateCall.value) call.value

/-- **The builder's state after any calls** that it can count. -/
theorem built_run {calls : List UpdateCall} (inside : calls.length ≤ u64Max) :
    Built calls (run calls) := by
  induction calls using List.reverseRecOn with
  | nil => exact ⟨rfl, rfl, rfl, numbered_empty, numbered_empty⟩
  | append_singleton calls call ih =>
      rw [List.length_append, List.length_singleton] at inside
      rw [run_append_singleton]
      exact (ih (by omega)).apply inside call

end Update

/-! ### How many calls a text has room for -/

/-- A joined text has a byte for each of its parts. -/
theorem length_le_joinTexts (separator : String) {texts : List String}
    (bytes : ∀ text ∈ texts, 1 ≤ text.utf8ByteSize) :
    texts.length ≤ (joinTexts separator texts).utf8ByteSize := by
  fun_induction joinTexts separator texts with
  | case1 => exact Nat.zero_le _
  | case2 text => exact bytes text List.mem_cons_self
  | case3 text other texts ih =>
      have here := bytes text List.mem_cons_self
      have later := ih fun text mem => bytes text (List.mem_cons_of_mem _ mem)
      rw [String.utf8ByteSize_append, String.utf8ByteSize_append, List.length_cons]
      omega

theorem one_le_clause (slot : ℕ) (call : UpdateCall) : 1 ≤ (call.clause slot).utf8ByteSize := by
  have mark : 1 ≤ (slotName "#u" slot).utf8ByteSize := by
    rw [slotName, String.utf8ByteSize_append]
    exact Nat.le_add_right_of_le (by decide)
  cases call <;> simp only [UpdateCall.clause, String.utf8ByteSize_append] <;> omega

namespace Update

/-- Every call leaves one clause, which is not empty. -/
theorem clauses_run (calls : List UpdateCall) :
    (run calls).setClauses.length + (run calls).addClauses.length = calls.length ∧
      (∀ clause ∈ (run calls).setClauses, 1 ≤ clause.utf8ByteSize) ∧
        ∀ clause ∈ (run calls).addClauses, 1 ≤ clause.utf8ByteSize := by
  induction calls using List.reverseRecOn with
  | nil => exact ⟨rfl, by simp [run, new], by simp [run, new]⟩
  | append_singleton calls call ih =>
      obtain ⟨count, sets, adds⟩ := ih
      have own := one_le_clause (run calls).next call
      rw [run_append_singleton, apply_eq, List.length_append, List.length_singleton]
      cases call.sets with
      | true =>
          refine ⟨?_, fun clause mem => ?_, adds⟩
          · simp only [if_true, List.length_append, List.length_singleton]
            omega
          · rcases List.mem_append.mp mem with old | new
            · exact sets clause old
            · exact List.mem_singleton.mp new ▸ own
      | false =>
          refine ⟨?_, sets, fun clause mem => ?_⟩
          · simp only [Bool.false_eq_true, if_false, List.length_append, List.length_singleton]
            omega
          · rcases List.mem_append.mp mem with old | new
            · exact adds clause old
            · exact List.mem_singleton.mp new ▸ own

theorem length_le_build (calls : List UpdateCall) :
    calls.length ≤ (run calls).build.expression.utf8ByteSize := by
  obtain ⟨count, sets, adds⟩ := clauses_run calls
  have setBytes := length_le_joinTexts ", " sets
  have addBytes := length_le_joinTexts ", " adds
  rw [build, String.utf8ByteSize_append, ← count]
  refine Nat.add_le_add ?_ ?_
  · split_ifs with none
    · rw [none]
      exact Nat.zero_le _
    · rw [String.utf8ByteSize_append]
      exact Nat.le_add_left_of_le setBytes
  · by_cases none : (run calls).addClauses = []
    · rw [none]
      exact Nat.zero_le _
    · rw [if_neg none, String.utf8ByteSize_append]
      exact Nat.le_add_left_of_le addBytes

/-- An update that a program can hold is as its calls say. -/
theorem built_of_fits {calls : List UpdateCall} (fits : (run calls).build.Fits) :
    Built calls (run calls) := by
  refine built_run ?_
  have room := (length_le_build calls).trans fits
  rw [maxTextBytes] at room
  rw [u64Max, u64Bound]
  omega

end Update

/-! ## Calls on a condition -/

/-- A call on the builder of a condition. -/
inductive ConditionCall where
  | orEquals (attr : String) (value : AttributeValue)
  | andEquals (attr : String) (value : AttributeValue)

namespace ConditionCall

def attr : ConditionCall → String
  | .orEquals attr _ | .andEquals attr _ => attr

def value : ConditionCall → AttributeValue
  | .orEquals _ value | .andEquals _ value => value

/-- The word that joins the call's clause. -/
def word : ConditionCall → String
  | .orEquals _ _ => " OR "
  | .andEquals _ _ => " AND "

end ConditionCall

namespace Condition

def apply (condition : Condition) : ConditionCall → Condition
  | .orEquals attr value => condition.orEquals attr value
  | .andEquals attr value => condition.andEquals attr value

/-- The builder after `attribute_not_exists` and a sequence of calls. -/
def chain (attr : String) (calls : List ConditionCall) : Condition :=
  calls.foldl apply (attributeNotExists attr)

theorem chain_append_singleton (attr : String) (calls : List ConditionCall) (call : ConditionCall) :
    chain attr (calls ++ [call]) = (chain attr calls).apply call := by
  rw [chain, List.foldl_append, List.foldl_cons, List.foldl_nil, chain]

/-- What one call does to the builder. -/
theorem apply_eq (condition : Condition) (call : ConditionCall) :
    condition.apply call =
      { expression :=
          condition.expression ++ call.word ++ slotName "#c" condition.next ++ " = " ++
            slotName ":c" (nextSlot condition.next)
        names := condition.names.insert (slotName "#c" condition.next) call.attr
        values := condition.values.insert (slotName ":c" (nextSlot condition.next)) call.value
        next := nextSlot (nextSlot condition.next) } := by
  cases call <;> rfl

/-- The slots of a call's name and value. -/
def nameSlot (index : ℕ) : ℕ := 2 * index + 1
def valueSlot (index : ℕ) : ℕ := 2 * index + 2

/-- The text of a call's clause. -/
def clauseText (slotted : ConditionCall × ℕ) : String :=
  slotted.1.word ++ slotName "#c" (nameSlot slotted.2) ++ " = " ++
    slotName ":c" (valueSlot slotted.2)

/-- A builder as the calls leave it. -/
structure Built (attr : String) (calls : List ConditionCall) (condition : Condition) : Prop where
  next : condition.next = nameSlot calls.length
  expression : condition.expression =
    (calls.zipIdx.map clauseText).foldl (· ++ ·)
      ("attribute_not_exists(" ++ slotName "#c" 0 ++ ")")
  names : Numbered "#c"
    ((0, attr) :: calls.zipIdx.map fun slotted => (nameSlot slotted.2, slotted.1.attr))
    condition.names
  values : Numbered ":c"
    (calls.zipIdx.map fun slotted => (valueSlot slotted.2, slotted.1.value)) condition.values

theorem built_attributeNotExists (attr : String) : Built attr [] (attributeNotExists attr) where
  next := rfl
  expression := rfl
  names := numbered_empty.insert (fun _ mem => absurd mem List.not_mem_nil) attr
  values := numbered_empty

/-- One more call, if its slots can be counted past. -/
theorem Built.apply {attr : String} {calls : List ConditionCall} {condition : Condition}
    (built : Built attr calls condition) (inside : valueSlot calls.length < u64Max)
    (call : ConditionCall) : Built attr (calls ++ [call]) (condition.apply call) := by
  rw [valueSlot, u64Max] at inside
  have first : nextSlot (nameSlot calls.length) = valueSlot calls.length := by
    rw [nextSlot, nameSlot, valueSlot, saturatingAdd_of_lt (by omega)]
  have second : nextSlot (valueSlot calls.length) = nameSlot (calls.length + 1) := by
    rw [nextSlot, nameSlot, valueSlot, saturatingAdd_of_lt (by omega)]
    omega
  have indexed : (calls ++ [call]).zipIdx = calls.zipIdx ++ [(call, calls.length)] := by
    rw [List.zipIdx_append, List.zipIdx_singleton, Nat.zero_add]
  rw [apply_eq, built.next, first]
  refine ⟨?_, ?_, ?_, ?_⟩
  · rw [second, List.length_append, List.length_singleton]
  · rw [indexed, List.map_append, List.foldl_append, built.expression]
    simp [clauseText, String.append_assoc]
  · rw [indexed, List.map_append, ← List.cons_append]
    refine built.names.insert (fun entry mem => ?_) call.attr
    rcases List.mem_cons.mp mem with rfl | later
    · rw [nameSlot]; omega
    · obtain ⟨⟨other, index⟩, inner, rfl⟩ := List.mem_map.mp later
      have := (List.mem_zipIdx' inner).1
      rw [nameSlot, nameSlot]
      omega
  · rw [indexed, List.map_append]
    refine built.values.insert (fun entry mem => ?_) call.value
    obtain ⟨⟨other, index⟩, inner, rfl⟩ := List.mem_map.mp mem
    have := (List.mem_zipIdx' inner).1
    rw [valueSlot, valueSlot]
    omega

/-- **The builder's state after any calls** that it can count. -/
theorem built_chain {attr : String} {calls : List ConditionCall}
    (inside : nameSlot calls.length ≤ u64Max) : Built attr calls (chain attr calls) := by
  induction calls using List.reverseRecOn with
  | nil => exact built_attributeNotExists attr
  | append_singleton calls call ih =>
      rw [List.length_append, List.length_singleton] at inside
      rw [chain_append_singleton]
      rw [nameSlot] at inside
      exact (ih (by rw [nameSlot]; omega)).apply (by rw [valueSlot]; omega) call

/-- Every call leaves a byte in the text. -/
theorem length_le_chain (attr : String) (calls : List ConditionCall) :
    calls.length ≤ (chain attr calls).expression.utf8ByteSize := by
  induction calls using List.reverseRecOn with
  | nil => exact Nat.zero_le _
  | append_singleton calls call ih =>
      have word : 1 ≤ call.word.utf8ByteSize := by cases call <;> exact of_decide_eq_true rfl
      rw [chain_append_singleton, apply_eq, List.length_append, List.length_singleton]
      simp only [String.utf8ByteSize_append]
      omega

/-- A condition that a program can hold is as its calls say. -/
theorem built_of_fits {attr : String} {calls : List ConditionCall}
    (fits : (chain attr calls).build.Fits) : Built attr calls (chain attr calls) := by
  refine built_chain ?_
  have room := (length_le_chain attr calls).trans fits
  rw [maxTextBytes] at room
  rw [nameSlot, u64Max, u64Bound]
  omega

end Condition

end WaitingRoom.Expr
