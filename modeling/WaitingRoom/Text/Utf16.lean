import WaitingRoom.Text.Utf8
import Mathlib.Data.Option.Basic

/-!
# UTF-16

A text as a list of 16-bit units: one for a character of the basic plane, a pair of surrogates for
any other. Units that encode a text read as its characters (`scalars_utf16`), so encoding is
injective (`utf16_injective`). A surrogate that is not half of a pair is no character.
-/

set_option autoImplicit false

namespace WaitingRoom.Text

/-- A text as its code units. -/
abbrev Units := List UInt16

/-- The code units of a character. -/
def encodeUtf16 (c : Char) : Units :=
  if c.toNat < 0x10000 then [.ofNat c.toNat]
  else [.ofNat (0xD800 + (c.toNat - 0x10000) / 0x400), .ofNat (0xDC00 + (c.toNat - 0x10000) % 0x400)]

/-- The code units of a text. -/
def utf16 (text : String) : Units := text.toList.flatMap encodeUtf16

/-- The characters of a text, with a blank for every surrogate that is not half of a pair. -/
def scalars : Units → List (Option Char)
  | [] => []
  | unit :: rest =>
      if unit.toNat < 0xD800 ∨ 0xDFFF < unit.toNat then some (Char.ofNat unit.toNat) :: scalars rest
      else
        match rest with
        | low :: tail =>
            if unit.toNat ≤ 0xDBFF ∧ 0xDC00 ≤ low.toNat ∧ low.toNat ≤ 0xDFFF then
              some (Char.ofNat
                (0x10000 + (unit.toNat - 0xD800) * 0x400 + (low.toNat - 0xDC00))) :: scalars tail
            else none :: scalars (low :: tail)
        | [] => [none]

theorem toNat_bounds (c : Char) : c.toNat < 0x110000 ∧ ¬ (0xD800 ≤ c.toNat ∧ c.toNat ≤ 0xDFFF) := by
  rcases c.valid with below | ⟨above, below⟩
  · change c.toNat < 0xD800 at below
    omega
  · change 0xDFFF < c.toNat at above
    change c.toNat < 0x110000 at below
    omega

theorem toNat_ofNat_unit {n : ℕ} (inside : n < 0x10000) : (UInt16.ofNat n).toNat = n := by
  rw [UInt16.toNat_ofNat']
  exact Nat.mod_eq_of_lt inside

/-- A character is read from its own units. -/
theorem scalars_encode (c : Char) (rest : Units) :
    scalars (encodeUtf16 c ++ rest) = some c :: scalars rest := by
  obtain ⟨small, scalar⟩ := toNat_bounds c
  rw [encodeUtf16]
  split_ifs with basic
  · have unit := toNat_ofNat_unit basic
    rw [List.singleton_append, scalars.eq_def]
    simp only [unit]
    rw [if_pos (by omega), Char.ofNat_toNat]
  · have high : 0xD800 + (c.toNat - 0x10000) / 0x400 < 0x10000 := by omega
    have low : 0xDC00 + (c.toNat - 0x10000) % 0x400 < 0x10000 := by omega
    have whole : 0x10000 + (0xD800 + (c.toNat - 0x10000) / 0x400 - 0xD800) * 0x400 +
        (0xDC00 + (c.toNat - 0x10000) % 0x400 - 0xDC00) = c.toNat := by omega
    rw [List.cons_append, List.cons_append, List.nil_append, scalars.eq_def]
    simp only [toNat_ofNat_unit high, toNat_ofNat_unit low]
    rw [if_neg (by omega), if_pos (by omega), whole, Char.ofNat_toNat]

theorem scalars_flatMap (chars : List Char) (rest : Units) :
    scalars (chars.flatMap encodeUtf16 ++ rest) = chars.map some ++ scalars rest := by
  induction chars with
  | nil => rfl
  | cons c chars ih =>
      rw [List.flatMap_cons, List.append_assoc, scalars_encode, ih]
      rfl

/-- **A text is read from its own units.** -/
theorem scalars_utf16 (text : String) : scalars (utf16 text) = text.toList.map some := by
  have read := scalars_flatMap text.toList []
  rwa [List.append_nil, scalars, List.append_nil] at read

/-- A unit of the basic plane encodes its own character. -/
theorem encodeUtf16_unit {unit : UInt16} (basic : unit.toNat < 0xD800 ∨ 0xDFFF < unit.toNat) :
    encodeUtf16 (Char.ofNat unit.toNat) = [unit] := by
  have small : unit.toNat < 0x10000 := unit.toNat_lt
  have code : (Char.ofNat unit.toNat).toNat = unit.toNat :=
    ofNat_toNat_of_valid (basic.imp_right fun above => ⟨above, by omega⟩)
  rw [encodeUtf16, code, if_pos small, UInt16.ofNat_toNat]

/-- A pair of surrogates encodes its own character. -/
theorem encodeUtf16_pair {high low : UInt16} (first : 0xD800 ≤ high.toNat ∧ high.toNat ≤ 0xDBFF)
    (second : 0xDC00 ≤ low.toNat ∧ low.toNat ≤ 0xDFFF) :
    encodeUtf16 (Char.ofNat (0x10000 + (high.toNat - 0xD800) * 0x400 + (low.toNat - 0xDC00))) =
      [high, low] := by
  have upper : 0xD800 + (0x10000 + (high.toNat - 0xD800) * 0x400 + (low.toNat - 0xDC00) - 0x10000) / 0x400 =
      high.toNat := by omega
  have lower : 0xDC00 + (0x10000 + (high.toNat - 0xD800) * 0x400 + (low.toNat - 0xDC00) - 0x10000) % 0x400 =
      low.toNat := by omega
  rw [encodeUtf16, ofNat_toNat_of_valid (.inr ⟨by omega, by omega⟩), if_neg (by omega), upper, lower,
    UInt16.ofNat_toNat, UInt16.ofNat_toNat]

/-- **Units that read as characters are the units of those.** -/
theorem flatMap_encodeUtf16_of_scalars {units : Units} {chars : List Char}
    (read : scalars units = chars.map some) : chars.flatMap encodeUtf16 = units := by
  induction units using scalars.induct generalizing chars with
  | case1 =>
      obtain rfl := List.map_eq_nil_iff.mp read.symm
      rfl
  | case2 unit rest basic ih =>
      rw [scalars.eq_def] at read
      simp only [if_pos basic] at read
      obtain ⟨c, others, rfl, same, later⟩ := List.map_eq_cons_iff.mp read.symm
      obtain rfl := Option.some.inj same
      rw [List.flatMap_cons, encodeUtf16_unit basic, ih later.symm]
      rfl
  | case3 high surrogate low tail pair ih =>
      rw [scalars.eq_def] at read
      simp only [if_neg surrogate, if_pos pair] at read
      obtain ⟨c, others, rfl, same, later⟩ := List.map_eq_cons_iff.mp read.symm
      have bounds : 0xD800 ≤ high.toNat := by omega
      rw [List.flatMap_cons, ih later.symm, Option.some.inj same, encodeUtf16_pair ⟨bounds, pair.1⟩ pair.2]
      rfl
  | case4 high surrogate low tail apart ih =>
      rw [scalars.eq_def] at read
      simp only [if_neg surrogate, if_neg apart] at read
      obtain ⟨c, others, rfl, same, later⟩ := List.map_eq_cons_iff.mp read.symm
      cases same
  | case5 high surrogate =>
      rw [scalars.eq_def] at read
      simp only [if_neg surrogate] at read
      obtain ⟨c, others, rfl, same, later⟩ := List.map_eq_cons_iff.mp read.symm
      cases same

/-- Units as a text. -/
def textOf (units : Units) : String := String.ofList ((scalars units).map fun c => c.getD replacement)

theorem textOf_utf16 (text : String) : textOf (utf16 text) = text := by
  have each : ((fun c => c.getD replacement) ∘ some : Char → Char) = id := rfl
  rw [textOf, scalars_utf16, List.map_map, each, List.map_id, String.ofList_toList]

theorem utf16_injective : Function.Injective utf16 := by
  intro text other same
  have read := congrArg scalars same
  rw [scalars_utf16, scalars_utf16] at read
  exact String.toList_inj.mp (List.map_injective_iff.mpr (Option.some_injective Char) read)

theorem utf16_append (text other : String) : utf16 (text ++ other) = utf16 text ++ utf16 other := by
  simp [utf16]

/-- An ASCII character is one unit. -/
theorem encodeUtf16_ascii {c : Char} (ascii : c.toNat < 0x80) : encodeUtf16 c = [.ofNat c.toNat] :=
  if_pos (by omega)

/-- The units of an ASCII text. -/
theorem flatMap_encodeUtf16_ascii {chars : List Char} (ascii : ∀ c ∈ chars, c.toNat < 0x80) :
    chars.flatMap encodeUtf16 = chars.map fun c => .ofNat c.toNat := by
  induction chars with
  | nil => rfl
  | cons c rest ih =>
      rw [List.flatMap_cons, encodeUtf16_ascii (ascii c List.mem_cons_self),
        ih fun later member => ascii later (List.mem_cons_of_mem c member)]
      rfl

end WaitingRoom.Text
