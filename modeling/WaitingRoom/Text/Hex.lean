import WaitingRoom.Text.Percent
import Mathlib.Data.List.Basic
import Mathlib.Algebra.Group.Nat.Defs

/-!
# Hexadecimal text

A byte is two lowercase digits, and the digits of bytes are read back (`readHex_hexBytes`). Bytes are
also written in groups with a mark between them, and a number as its bytes, most significant first.
-/

set_option autoImplicit false

namespace WaitingRoom.Text

/-! ## Digits -/

/-- A lowercase digit. -/
def hexLetter (n : ℕ) : Char := if n < 10 then Char.ofNat (48 + n) else Char.ofNat (87 + n)

/-- A byte as two digits. -/
def hexPair (b : UInt8) : List Char := [hexLetter (b.toNat / 16), hexLetter (b.toNat % 16)]

/-- The digits of bytes. -/
def hexBytes (bytes : List UInt8) : List Char := bytes.flatMap hexPair

/-- The bytes of digits. -/
def readHex : List Char → Option (List UInt8)
  | [] => some []
  | first :: second :: rest =>
      match hexOctet first.toNat second.toNat with
      | some b => (readHex rest).map (b :: ·)
      | none => none
  | [_] => none

theorem hexValue_hexLetter {n : ℕ} (digit : n < 16) : hexValue (hexLetter n).toNat = some n := by
  have every : ((List.range 16).all fun n => decide (hexValue (hexLetter n).toNat = some n)) = true := by
    decide
  exact of_decide_eq_true (List.all_eq_true.mp every n (List.mem_range.mpr digit))

/-- **Digits are read back.** -/
theorem readHex_hexBytes (bytes : List UInt8) : readHex (hexBytes bytes) = some bytes := by
  induction bytes with
  | nil => rfl
  | cons b bytes ih =>
      have small : b.toNat < 256 := b.toNat_lt
      have octet : hexOctet (hexLetter (b.toNat / 16)).toNat (hexLetter (b.toNat % 16)).toNat = some b := by
        rw [hexOctet, hexValue_hexLetter (by omega), hexValue_hexLetter (Nat.mod_lt _ (by decide))]
        simp only [Nat.div_add_mod']
        rw [UInt8.ofNat_toNat]
      change readHex (hexLetter (b.toNat / 16) :: hexLetter (b.toNat % 16) :: hexBytes bytes) = _
      rw [readHex, octet, ih]
      rfl

/-! ## Groups -/

/-- The digits of bytes, in groups of the given sizes with a mark behind each. -/
def grouped (mark : Char) : List ℕ → List UInt8 → List Char
  | [], bytes => hexBytes bytes
  | size :: sizes, bytes =>
      hexBytes (bytes.take size) ++ mark :: grouped mark sizes (bytes.drop size)

/-! ## Numbers -/

/-- The low bytes of a number, most significant first. -/
def bigEndian : ℕ → ℕ → List UInt8
  | 0, _ => []
  | count + 1, n => .ofNat (n / 256 ^ count) :: bigEndian count n

@[simp] theorem length_bigEndian (count n : ℕ) : (bigEndian count n).length = count := by
  induction count with
  | zero => rfl
  | succ count ih => rw [bigEndian, List.length_cons, ih]

end WaitingRoom.Text
