import Mathlib.Data.Rat.Defs

/-!
# Items, conditions and updates

A key-value table holds items, and an item is a partial map from attribute names to typed
values. An `UpdateItem` evaluates its condition against the stored item (an item that does
not exist has no attributes) and, when it holds, applies every clause to the item as it
stood before, creating it if need be. An `ADD` on an attribute that is not a number is
refused and changes nothing.

A number attribute carries its number. The text that travels between a client and the
table is the number's decimal rendering, so a client that parses an integer type succeeds
exactly on the integers in that type's range (`AttributeValue.asUnsigned`).
-/

set_option autoImplicit false

namespace WaitingRoom.Dynamo

/-- A typed attribute value: text, number, binary or list. -/
inductive AttributeValue where
  | S (text : String)
  | N (number : ℚ)
  | B (bytes : List UInt8)
  | L (items : List AttributeValue)

namespace AttributeValue

def asS : AttributeValue → Option String
  | .S text => some text
  | _ => none

def asN : AttributeValue → Option ℚ
  | .N number => some number
  | _ => none

def asB : AttributeValue → Option (List UInt8)
  | .B bytes => some bytes
  | _ => none

def asL : AttributeValue → Option (List AttributeValue)
  | .L items => some items
  | _ => none

/-- The natural number below `bound` that a number is, if it is one. -/
def unsignedOf (bound : ℕ) (number : ℚ) : Option ℕ :=
  if number.den = 1 ∧ 0 ≤ number.num ∧ number.num.toNat < bound then some number.num.toNat
  else none

/-- Read a number attribute as an unsigned integer below `bound`. -/
def asUnsigned (bound : ℕ) (value : AttributeValue) : Option ℕ :=
  value.asN.bind (unsignedOf bound)

theorem unsignedOf_natCast (bound n : ℕ) :
    unsignedOf bound (n : ℚ) = if n < bound then some n else none := by
  simp [unsignedOf]

theorem asUnsigned_natCast {bound n : ℕ} (inside : n < bound) :
    asUnsigned bound (.N n) = some n := by
  simp [asUnsigned, asN, unsignedOf_natCast, inside]

/-- A number that reads as an unsigned integer is that integer. -/
theorem eq_of_asUnsigned {bound n : ℕ} {value : AttributeValue}
    (read : asUnsigned bound value = some n) : value = .N n := by
  obtain ⟨number, isNumber, unsigned⟩ := Option.bind_eq_some_iff.mp read
  cases value with
  | N stored =>
      obtain rfl := Option.some.inj isNumber
      simp only [unsignedOf] at unsigned
      split at unsigned
      · next inside =>
          obtain ⟨whole, positive, -⟩ := inside
          obtain rfl := Option.some.inj unsigned
          have same : ((stored.num.toNat : ℤ) : ℚ) = stored := by
            rw [Int.toNat_of_nonneg positive, Rat.coe_int_num_of_den_eq_one whole]
          exact congrArg AttributeValue.N same.symm
      · cases unsigned
  | S _ | B _ | L _ => cases isNumber

theorem asUnsigned_lt {bound n : ℕ} {value : AttributeValue}
    (read : asUnsigned bound value = some n) : n < bound := by
  obtain ⟨number, -, unsigned⟩ := Option.bind_eq_some_iff.mp read
  simp only [unsignedOf] at unsigned
  split at unsigned
  · next inside => exact Option.some.inj unsigned ▸ inside.2.2
  · cases unsigned

mutual
/-- Equality of two values, as a condition compares them. -/
def same : AttributeValue → AttributeValue → Bool
  | .S left, .S right => left == right
  | .N left, .N right => left == right
  | .B left, .B right => left == right
  | .L left, .L right => sameAll left right
  | _, _ => false

def sameAll : List AttributeValue → List AttributeValue → Bool
  | [], [] => true
  | left :: lefts, right :: rights => left.same right && sameAll lefts rights
  | _, _ => false
end

@[simp] theorem same_S {left right : String} : same (.S left) (.S right) = (left == right) := by
  rw [same]

@[simp] theorem same_N {left right : ℚ} : same (.N left) (.N right) = (left == right) := by
  rw [same]

/-- A value that compares equal to a number is that number. -/
theorem eq_of_same_N {value : AttributeValue} {number : ℚ} (equal : same value (.N number)) :
    value = .N number := by
  cases value with
  | N other => rw [same_N, beq_iff_eq] at equal; rw [equal]
  | S _ => simp [same] at equal
  | B _ => simp [same] at equal
  | L _ => simp [same] at equal

end AttributeValue

/-- An item: the attributes it has. -/
abbrev Item := String → Option AttributeValue

namespace Item

/-- The item with no attributes. -/
def empty : Item := fun _ => none

/-- Write one attribute. -/
def put (item : Item) (attr : String) (value : AttributeValue) : Item :=
  fun name => if name = attr then some value else item name

/-- Remove one attribute. -/
def erase (item : Item) (attr : String) : Item :=
  fun name => if name = attr then none else item name

@[simp] theorem empty_apply (attr : String) : empty attr = none := rfl

@[simp] theorem put_self (item : Item) (attr : String) (value : AttributeValue) :
    item.put attr value attr = some value := if_pos rfl

theorem put_of_ne {attr name : String} (other : name ≠ attr) (item : Item)
    (value : AttributeValue) : item.put attr value name = item name := if_neg other

theorem erase_of_ne {attr name : String} (other : name ≠ attr) (item : Item) :
    item.erase attr name = item name := if_neg other

end Item

/-! ## Conditions -/

/-- A condition expression. -/
inductive Condition where
  | always
  | attributeNotExists (attr : String)
  | equals (attr : String) (value : AttributeValue)
  | atMost (attr : String) (bound : ℚ)
  | and (left right : Condition)
  | or (left right : Condition)

/-- Whether an item satisfies a condition. A comparison with an attribute the item does
not have is false. -/
def Condition.holds (item : Item) : Condition → Bool
  | .always => true
  | .attributeNotExists attr => (item attr).isNone
  | .equals attr value => (item attr).any fun stored => stored.same value
  | .atMost attr bound =>
      ((item attr).bind AttributeValue.asN).any fun stored => decide (stored ≤ bound)
  | .and left right => left.holds item && right.holds item
  | .or left right => left.holds item || right.holds item

theorem Condition.eq_of_equals_N {item : Item} {attr : String} {number : ℚ}
    (holds : (Condition.equals attr (.N number)).holds item) : item attr = some (.N number) := by
  obtain ⟨stored, found, equal⟩ := (Option.any_eq_true _ _).mp holds
  rw [found, AttributeValue.eq_of_same_N equal]

/-! ## Updates -/

/-- One clause of an update expression. -/
inductive Clause where
  | set (attr : String) (value : AttributeValue)
  | setIfNotExists (attr : String) (value : AttributeValue)
  | add (attr : String) (number : ℚ)
  | remove (attr : String)

/-- The attribute a clause writes. -/
def Clause.attr : Clause → String
  | .set attr _ => attr
  | .setIfNotExists attr _ => attr
  | .add attr _ => attr
  | .remove attr => attr

/-- Apply one clause to `item`, reading what it needs from the item as it stood before
the update. `none` for an `ADD` on an attribute that is not a number. -/
def Clause.apply (stored : Item) (item : Item) : Clause → Option Item
  | .set attr value => some (item.put attr value)
  | .setIfNotExists attr value => some (item.put attr ((stored attr).getD value))
  | .add attr number =>
      match stored attr with
      | none => some (item.put attr (.N number))
      | some (.N old) => some (item.put attr (.N (old + number)))
      | some _ => none
  | .remove attr => some (item.erase attr)

/-- What an `UpdateItem` does. -/
inductive UpdateOutcome where
  | updated (item : Item)
  | conditionFailed
  | rejected

/-- `UpdateItem`: one conditional update, which creates an item that does not exist. -/
def updateItem (stored : Option Item) (condition : Condition) (clauses : List Clause) :
    UpdateOutcome :=
  let old := stored.getD .empty
  if condition.holds old then
    match clauses.foldlM (Clause.apply old) old with
    | some item => .updated item
    | none => .rejected
  else .conditionFailed

theorem Clause.apply_of_ne {clause : Clause} {stored item item' : Item} {name : String}
    (applied : clause.apply stored item = some item') (other : name ≠ clause.attr) :
    item' name = item name := by
  cases clause with
  | set attr value =>
      obtain rfl := Option.some.inj applied
      exact Item.put_of_ne other _ _
  | setIfNotExists attr value =>
      obtain rfl := Option.some.inj applied
      exact Item.put_of_ne other _ _
  | add attr number =>
      simp only [Clause.apply] at applied
      split at applied
      · obtain rfl := Option.some.inj applied
        exact Item.put_of_ne other _ _
      · obtain rfl := Option.some.inj applied
        exact Item.put_of_ne other _ _
      · cases applied
  | remove attr =>
      obtain rfl := Option.some.inj applied
      exact Item.erase_of_ne other _

theorem foldlM_apply_of_ne {stored : Item} {name : String} {clauses : List Clause}
    (untouched : ∀ clause ∈ clauses, name ≠ clause.attr) {item item' : Item}
    (applied : clauses.foldlM (Clause.apply stored) item = some item') : item' name = item name := by
  induction clauses generalizing item with
  | nil =>
      obtain rfl := Option.some.inj applied
      rfl
  | cons clause clauses ih =>
      rw [List.foldlM_cons] at applied
      obtain ⟨middle, first, rest⟩ := Option.bind_eq_some_iff.mp applied
      rw [ih (fun later member => untouched later (List.mem_cons_of_mem _ member)) rest]
      exact Clause.apply_of_ne first (untouched clause List.mem_cons_self)

/-- What an update that landed did: its condition held and every clause applied. -/
theorem updateItem_eq_updated {stored : Option Item} {condition : Condition}
    {clauses : List Clause} {item : Item} :
    updateItem stored condition clauses = .updated item ↔
      condition.holds (stored.getD .empty) ∧
        clauses.foldlM (Clause.apply (stored.getD .empty)) (stored.getD .empty) = some item := by
  simp only [updateItem]
  split
  · next holds =>
      split
      · next applied => simp [holds, applied]
      · next refused => simp [refused]
  · next fails => simp [fails]

/-- **Frame**: an update leaves every attribute none of its clauses names. -/
theorem updateItem_of_ne {stored : Option Item} {condition : Condition} {clauses : List Clause}
    {item : Item} {name : String} (updated : updateItem stored condition clauses = .updated item)
    (untouched : ∀ clause ∈ clauses, name ≠ clause.attr) :
    item name = stored.getD .empty name :=
  foldlM_apply_of_ne untouched (updateItem_eq_updated.mp updated).2

/-- A written attribute holds what the last clause on it set. -/
theorem updateItem_set {stored : Option Item} {condition : Condition} (before : List Clause)
    {after : List Clause} {attr : String} {value : AttributeValue} {item : Item}
    (updated : updateItem stored condition (before ++ .set attr value :: after) = .updated item)
    (last : ∀ clause ∈ after, attr ≠ clause.attr) : item attr = some value := by
  obtain ⟨-, applied⟩ := updateItem_eq_updated.mp updated
  rw [List.foldlM_append] at applied
  obtain ⟨middle, -, rest⟩ := Option.bind_eq_some_iff.mp applied
  rw [List.foldlM_cons] at rest
  obtain ⟨next, written, rest⟩ := Option.bind_eq_some_iff.mp rest
  obtain rfl := Option.some.inj written
  rw [foldlM_apply_of_ne last rest, Item.put_self]

/-- A removed attribute is gone. -/
theorem updateItem_remove {stored : Option Item} {condition : Condition} (before : List Clause)
    {after : List Clause} {attr : String} {item : Item}
    (updated : updateItem stored condition (before ++ .remove attr :: after) = .updated item)
    (last : ∀ clause ∈ after, attr ≠ clause.attr) : item attr = none := by
  obtain ⟨-, applied⟩ := updateItem_eq_updated.mp updated
  rw [List.foldlM_append] at applied
  obtain ⟨middle, -, rest⟩ := Option.bind_eq_some_iff.mp applied
  rw [List.foldlM_cons] at rest
  obtain ⟨next, removed, rest⟩ := Option.bind_eq_some_iff.mp rest
  obtain rfl := Option.some.inj removed
  rw [foldlM_apply_of_ne last rest]
  exact if_pos rfl

/-- The number an attribute holds, zero when it holds none. -/
def numberOf (item : Option Item) (attr : String) : ℚ :=
  ((item.getD .empty attr).bind AttributeValue.asN).getD 0

/-- **An `ADD` adds.** -/
theorem updateItem_add {stored : Option Item} {condition : Condition} (before : List Clause)
    {attr : String} {number : ℚ} {item : Item}
    (updated : updateItem stored condition (before ++ [.add attr number]) = .updated item) :
    item attr = some (.N (numberOf stored attr + number)) := by
  obtain ⟨-, applied⟩ := updateItem_eq_updated.mp updated
  rw [List.foldlM_append] at applied
  obtain ⟨middle, -, rest⟩ := Option.bind_eq_some_iff.mp applied
  rw [List.foldlM_cons] at rest
  obtain ⟨last, added, rest⟩ := Option.bind_eq_some_iff.mp rest
  obtain rfl := Option.some.inj rest
  simp only [Clause.apply] at added
  split at added
  · next absent =>
      obtain rfl := Option.some.inj added
      rw [Item.put_self, numberOf, absent, Option.bind_none, Option.getD_none, Rat.zero_add]
  · next old present =>
      obtain rfl := Option.some.inj added
      rw [Item.put_self, numberOf, present]
      rfl
  · cases added

/-- An update that landed satisfied its condition. -/
theorem updateItem_holds {stored : Option Item} {condition : Condition} {clauses : List Clause}
    {item : Item} (updated : updateItem stored condition clauses = .updated item) :
    condition.holds (stored.getD .empty) :=
  (updateItem_eq_updated.mp updated).1

end WaitingRoom.Dynamo
