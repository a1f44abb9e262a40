import Mathlib.Data.List.Basic
import Mathlib.Tactic.SplitIfs

/-!
# Percent-escapes

Bytes are escaped as `%XX`, those aside that an encoder keeps. Escaping what is escaped already keeps
only what both encoders keep (`escape_escape`), and makes a text longer unless it keeps all of it
(`length_escape_eq_iff`). A byte is read back from its two digits (`hexOctet_hexByte`).
-/

set_option autoImplicit false

namespace WaitingRoom.Text

/-- Every byte, one after the other. -/
theorem forall_byte {property : UInt8 → Prop} (every : ∀ n < 256, property (.ofNat n)) :
    ∀ b, property b := by
  intro b
  have found := every b.toNat b.toNat_lt
  rwa [UInt8.ofNat_toNat] at found

/-! ## Digits -/

/-- An upper-case hex digit. -/
def hexByte (n : ℕ) : UInt8 := if n < 10 then .ofNat (48 + n) else .ofNat (55 + n)

/-- The value of a hex digit, of either case. -/
def hexValue (code : ℕ) : Option ℕ :=
  if 48 ≤ code ∧ code ≤ 57 then some (code - 48)
  else if 65 ≤ code ∧ code ≤ 70 then some (code - 55)
  else if 97 ≤ code ∧ code ≤ 102 then some (code - 87)
  else none

/-- The byte of two hex digits. -/
def hexOctet (first second : ℕ) : Option UInt8 :=
  match hexValue first, hexValue second with
  | some high, some low => some (.ofNat (high * 16 + low))
  | _, _ => none

theorem hexValue_hexByte {n : ℕ} (digit : n < 16) : hexValue (hexByte n).toNat = some n := by
  have every : ∀ n < 16, hexValue (hexByte n).toNat = some n := by decide
  exact every n digit

/-- **A byte is read back from its digits.** -/
theorem hexOctet_hexByte (b : UInt8) :
    hexOctet (hexByte (b.toNat / 16)).toNat (hexByte (b.toNat % 16)).toNat = some b := by
  have small : b.toNat < 256 := b.toNat_lt
  rw [hexOctet, hexValue_hexByte (by omega), hexValue_hexByte (Nat.mod_lt _ (by decide))]
  simp only [Nat.div_add_mod']
  rw [UInt8.ofNat_toNat]

/-! ## Escaping -/

/-- `%XX`. -/
def escapeByte (b : UInt8) : List UInt8 := [37, hexByte (b.toNat / 16), hexByte (b.toNat % 16)]

/-- Bytes with all but the kept ones escaped. -/
def escape (keeps : UInt8 → Bool) (bytes : List UInt8) : List UInt8 :=
  bytes.flatMap fun b => if keeps b then [b] else escapeByte b

section Escape

variable {keeps keeps' : UInt8 → Bool} {bytes : List UInt8}

theorem escape_append (bytes bytes' : List UInt8) :
    escape keeps (bytes ++ bytes') = escape keeps bytes ++ escape keeps bytes' :=
  List.flatMap_append

theorem escape_cons (b : UInt8) (bytes : List UInt8) :
    escape keeps (b :: bytes) = (if keeps b then [b] else escapeByte b) ++ escape keeps bytes := rfl

/-- What is kept stays. -/
theorem escape_eq_self (kept : ∀ b ∈ bytes, keeps b) : escape keeps bytes = bytes := by
  induction bytes with
  | nil => rfl
  | cons b bytes ih =>
      rw [escape_cons, if_pos (kept b List.mem_cons_self),
        ih fun other member => kept other (List.mem_cons_of_mem b member)]
      rfl

/-- What escapes are made of. -/
def isEscape (b : UInt8) : Bool := b == 37 || (48 ≤ b && b ≤ 57) || (65 ≤ b && b ≤ 70)

theorem isEscape_ascii {b : UInt8} (escaped : isEscape b) : b.toNat < 0x80 := by
  simp only [isEscape, Bool.or_eq_true, beq_iff_eq, Bool.and_eq_true, decide_eq_true_eq,
    UInt8.le_iff_toNat_le] at escaped
  rcases escaped with (rfl | digit) | letter
  · decide
  · exact Nat.lt_of_le_of_lt digit.2 (by decide)
  · exact Nat.lt_of_le_of_lt letter.2 (by decide)

theorem isEscape_escapeByte (b : UInt8) : ∀ other ∈ escapeByte b, isEscape other := by
  have digits : ∀ n < 16, isEscape (hexByte n) := by decide
  have small : b.toNat < 256 := b.toNat_lt
  intro other member
  simp only [escapeByte, List.mem_cons, List.not_mem_nil, or_false] at member
  rcases member with rfl | rfl | rfl
  · rfl
  · exact digits _ (by omega)
  · exact digits _ (Nat.mod_lt _ (by decide))

theorem mem_escape {b : UInt8} (member : b ∈ escape keeps bytes) : keeps b ∨ isEscape b := by
  obtain ⟨source, -, member⟩ := List.mem_flatMap.mp member
  split_ifs at member with kept
  · rw [List.mem_singleton.mp member]
    exact .inl kept
  · exact .inr (isEscape_escapeByte source b member)

/-- What an encoder does not keep and no escape is made of is gone. -/
theorem not_mem_escape {b : UInt8} (drops : keeps b = false) (plain : isEscape b = false)
    (bytes : List UInt8) : b ∉ escape keeps bytes := by
  intro member
  rcases mem_escape member with holds | escaped
  · exact absurd (drops.symm.trans holds) nofun
  · exact absurd (plain.symm.trans escaped) nofun

/-- **Escaping twice** is escaping once, by an encoder that keeps what both keep. -/
theorem escape_escape (lets : ∀ b, isEscape b → keeps' b) (bytes : List UInt8) :
    escape keeps' (escape keeps bytes) = escape (fun b => keeps b && keeps' b) bytes := by
  induction bytes with
  | nil => rfl
  | cons b bytes ih =>
      rw [escape_cons, escape_cons, escape_append, ih]
      congr 1
      cases kept : keeps b with
      | true =>
          simp only [if_true, Bool.true_and, escape_cons]
          exact List.append_nil _
      | false =>
          simp only [Bool.false_eq_true, if_false, Bool.false_and]
          exact escape_eq_self fun other member => lets other (isEscape_escapeByte b other member)

theorem length_escape_cons (b : UInt8) (bytes : List UInt8) :
    (escape keeps (b :: bytes)).length = (if keeps b then 1 else 3) + (escape keeps bytes).length := by
  rw [escape_cons, List.length_append]
  split_ifs
  · rfl
  · rfl

theorem length_le_escape (bytes : List UInt8) : bytes.length ≤ (escape keeps bytes).length := by
  induction bytes with
  | nil => exact Nat.zero_le _
  | cons b bytes ih =>
      rw [length_escape_cons, List.length_cons]
      split_ifs
      · omega
      · omega

/-- **Only a text that is kept whole does not grow.** -/
theorem length_escape_eq_iff : (escape keeps bytes).length = bytes.length ↔ ∀ b ∈ bytes, keeps b := by
  refine ⟨fun same => ?_, fun kept => by rw [escape_eq_self kept]⟩
  induction bytes with
  | nil => exact nofun
  | cons b bytes ih =>
      have least : bytes.length ≤ (escape keeps bytes).length := length_le_escape bytes
      rw [length_escape_cons, List.length_cons] at same
      split_ifs at same with kept
      · exact List.forall_mem_cons.mpr ⟨kept, ih (by omega)⟩
      · omega

end Escape

end WaitingRoom.Text
