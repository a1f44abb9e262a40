import WaitingRoom.Common.Ids
import WaitingRoom.Text.Hex

/-!
# Ids that carry their time

The leading 48 bits of an id are the millisecond it was drawn in, and 74 random bits are below them. It
has the shape a request id is checked for (`isUuidShape_hyphenated`).
-/

set_option autoImplicit false

namespace WaitingRoom

open Text

/-- The bytes of an id that was drawn at a time, with the version and the variant over six of the
random bits. -/
def fromUnixTimestampMillis (millis : ℕ) (random : Fin 10 → UInt8) : List UInt8 :=
  bigEndian 6 millis ++
    [(random 0 &&& 0x0f) ||| 0x70, random 1, (random 2 &&& 0x3f) ||| 0x80, random 3, random 4,
      random 5, random 6, random 7, random 8, random 9]

/-- The text of sixteen bytes, in groups of four, two, two, two and six. -/
def hyphenated (bytes : List UInt8) : String := String.ofList (grouped '-' [4, 2, 2, 2] bytes)

/-- The id that is drawn at a time. -/
def requestIdAt (millis : ℕ) (random : Fin 10 → UInt8) : RequestId :=
  hyphenated (fromUnixTimestampMillis millis random)

theorem length_fromUnixTimestampMillis (millis : ℕ) (random : Fin 10 → UInt8) :
    (fromUnixTimestampMillis millis random).length = 16 := by
  rw [fromUnixTimestampMillis, List.length_append, length_bigEndian]
  rfl

/-! ## The shape -/

theorem isHexDigit_hexLetter {n : ℕ} (digit : n < 16) : isHexDigit (hexLetter n) = true := by
  have every : ((List.range 16).all fun n => isHexDigit (hexLetter n)) = true := by decide
  exact List.all_eq_true.mp every n (List.mem_range.mpr digit)

/-- **Sixteen bytes have the shape of a request id.** -/
theorem isUuidShape_hyphenated {bytes : List UInt8} (length : bytes.length = 16) :
    isUuidShape (hyphenated bytes) = true := by
  have digits : ∀ b : UInt8, isHexDigit (hexLetter (b.toNat / 16)) = true ∧
      isHexDigit (hexLetter (b.toNat % 16)) = true := fun b =>
    ⟨isHexDigit_hexLetter (by have := b.toNat_lt; omega), isHexDigit_hexLetter (by omega)⟩
  match bytes, length with
  | [_, _, _, _, _, _, _, _, _, _, _, _, _, _, _, _], _ =>
      simp [isUuidShape, hyphenated, grouped, hexBytes, hexPair, List.zipIdx, digits]

end WaitingRoom
