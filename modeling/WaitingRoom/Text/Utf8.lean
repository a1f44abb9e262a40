import Mathlib.Algebra.Group.Nat.Defs
import Mathlib.Data.List.Basic

/-!
# Lossy UTF-8

Bytes are decoded chunk by chunk. A chunk is one character, or a maximal piece of an ill-formed
sequence, which decodes to the replacement character. A chunk that starts with an ASCII byte is
that byte, and any other one takes no ASCII byte and decodes to no ASCII character
(`decodeChunk_ascii`, `decodeChunk_other`), so decoding keeps the ASCII of a text apart from the
rest (`fromUtf8Lossy_cons`).
-/

set_option autoImplicit false

namespace WaitingRoom.Text

/-- U+FFFD. -/
def replacement : Char := Char.ofNat 0xFFFD

/-- What a lead byte announces: how many tails, the least and the greatest first one, and the
bits it carries. -/
def leadOf (lead : ℕ) : Option (ℕ × ℕ × ℕ × ℕ) :=
  if 0xC2 ≤ lead ∧ lead ≤ 0xDF then some (1, 0x80, 0xBF, lead - 0xC0)
  else if lead = 0xE0 then some (2, 0xA0, 0xBF, 0)
  else if lead = 0xED then some (2, 0x80, 0x9F, 0xD)
  else if 0xE1 ≤ lead ∧ lead ≤ 0xEF then some (2, 0x80, 0xBF, lead - 0xE0)
  else if lead = 0xF0 then some (3, 0x90, 0xBF, 0)
  else if 0xF1 ≤ lead ∧ lead ≤ 0xF3 then some (3, 0x80, 0xBF, lead - 0xF0)
  else if lead = 0xF4 then some (3, 0x80, 0x8F, 4)
  else none

/-- Take the announced tails: how many there were, and the scalar if all were there. -/
def takeTails : (owed low high value : ℕ) → List UInt8 → ℕ × Option ℕ
  | 0, _, _, value, _ => (0, some value)
  | owed + 1, low, high, value, tail :: rest =>
      if low ≤ tail.toNat ∧ tail.toNat ≤ high then
        let (taken, scalar) := takeTails owed 0x80 0xBF (value * 64 + (tail.toNat - 0x80)) rest
        (taken + 1, scalar)
      else (0, none)
  | _ + 1, _, _, _, [] => (0, none)

/-- Decode the chunk that starts with a byte: its character, and how many further bytes it takes. -/
def decodeChunk (lead : UInt8) (rest : List UInt8) : Char × ℕ :=
  if lead.toNat < 0x80 then (Char.ofNat lead.toNat, 0)
  else
    match leadOf lead.toNat with
    | none => (replacement, 0)
    | some (owed, low, high, value) =>
        let (taken, scalar) := takeTails owed low high value rest
        ((scalar.map Char.ofNat).getD replacement, taken)

/-- Decode, skipping what the last chunk took. -/
def decodeFrom : ℕ → List UInt8 → List Char
  | _, [] => []
  | taken + 1, _ :: rest => decodeFrom taken rest
  | 0, lead :: rest =>
      (decodeChunk lead rest).1 :: decodeFrom (decodeChunk lead rest).2 rest

/-- `String::from_utf8_lossy`. -/
def fromUtf8Lossy (bytes : List UInt8) : List Char := decodeFrom 0 bytes

theorem decodeFrom_eq_drop (taken : ℕ) (bytes : List UInt8) :
    decodeFrom taken bytes = fromUtf8Lossy (bytes.drop taken) := by
  induction taken generalizing bytes with
  | zero => rfl
  | succ taken ih =>
      cases bytes with
      | nil => rfl
      | cons lead rest => exact ih rest

/-- Decoding goes chunk by chunk. -/
theorem fromUtf8Lossy_cons (lead : UInt8) (rest : List UInt8) :
    fromUtf8Lossy (lead :: rest) =
      (decodeChunk lead rest).1 :: fromUtf8Lossy (rest.drop (decodeChunk lead rest).2) := by
  rw [fromUtf8Lossy, decodeFrom, decodeFrom_eq_drop]

theorem decodeChunk_ascii {lead : UInt8} (ascii : lead.toNat < 0x80) (rest : List UInt8) :
    decodeChunk lead rest = (Char.ofNat lead.toNat, 0) := if_pos ascii

/-- The tails that were taken are there, and none of them is ASCII. -/
theorem takeTails_taken {owed low : ℕ} (high value : ℕ) (bytes : List UInt8) (above : 0x80 ≤ low) :
    (takeTails owed low high value bytes).1 ≤ bytes.length ∧
      ∀ tail ∈ bytes.take (takeTails owed low high value bytes).1, 0x80 ≤ tail.toNat := by
  induction owed generalizing low high value bytes with
  | zero => exact ⟨Nat.zero_le _, nofun⟩
  | succ owed ih =>
      cases bytes with
      | nil => exact ⟨Nat.zero_le _, nofun⟩
      | cons tail rest =>
          rw [takeTails]
          split_ifs with inside
          · obtain ⟨short, others⟩ :=
              ih 0xBF (value * 64 + (tail.toNat - 0x80)) rest (Nat.le_refl 0x80)
            refine ⟨Nat.succ_le_succ short, fun other member => ?_⟩
            rcases List.mem_cons.mp member with rfl | later
            · exact Nat.le_trans above inside.1
            · exact others other later
          · exact ⟨Nat.zero_le _, nofun⟩

/-- The scalar lies in the block that the bits so far name. -/
theorem takeTails_block {owed low high value scalar : ℕ} {bytes : List UInt8} (above : 0x80 ≤ low)
    (below : high ≤ 0xBF) (complete : (takeTails owed low high value bytes).2 = some scalar) :
    value * 64 ^ owed ≤ scalar ∧ scalar < (value + 1) * 64 ^ owed := by
  induction owed generalizing low high value bytes with
  | zero =>
      obtain rfl := Option.some.inj complete
      omega
  | succ owed ih =>
      cases bytes with
      | nil => cases complete
      | cons tail rest =>
          rw [takeTails] at complete
          split_ifs at complete with inside
          obtain ⟨least, greatest⟩ := ih (Nat.le_refl 0x80) (Nat.le_refl 0xBF) complete
          constructor
          · calc value * 64 ^ (owed + 1) = value * 64 * 64 ^ owed := by rw [Nat.pow_succ', Nat.mul_assoc]
              _ ≤ (value * 64 + (tail.toNat - 0x80)) * 64 ^ owed :=
                Nat.mul_le_mul_right _ (Nat.le_add_right _ _)
              _ ≤ scalar := least
          · calc scalar < (value * 64 + (tail.toNat - 0x80) + 1) * 64 ^ owed := greatest
              _ ≤ ((value + 1) * 64) * 64 ^ owed := Nat.mul_le_mul_right _ (by omega)
              _ = (value + 1) * 64 ^ (owed + 1) := by rw [Nat.pow_succ', Nat.mul_assoc]

/-- A first tail narrows the block. -/
theorem takeTails_scalar {owed low high value scalar : ℕ} {bytes : List UInt8}
    (complete : (takeTails (owed + 1) low high value bytes).2 = some scalar) :
    (value * 64 + (low - 0x80)) * 64 ^ owed ≤ scalar ∧
      scalar < (value * 64 + (high - 0x80) + 1) * 64 ^ owed := by
  cases bytes with
  | nil => cases complete
  | cons tail rest =>
      rw [takeTails] at complete
      split_ifs at complete with inside
      obtain ⟨least, greatest⟩ := takeTails_block (Nat.le_refl 0x80) (Nat.le_refl 0xBF) complete
      constructor
      · exact Nat.le_trans (Nat.mul_le_mul_right _ (by omega)) least
      · exact Nat.lt_of_lt_of_le greatest (Nat.mul_le_mul_right _ (by omega))

theorem ofNat_toNat_of_valid {scalar : ℕ} (valid : scalar.isValidChar) :
    (Char.ofNat scalar).toNat = scalar := by
  rw [Char.ofNat, dif_pos valid]
  rfl

/-- What a lead byte announces is a scalar beyond ASCII. -/
theorem leadOf_scalar {lead owed low high value : ℕ}
    (announced : leadOf lead = some (owed, low, high, value)) :
    0x80 ≤ low ∧ ∀ bytes scalar, (takeTails owed low high value bytes).2 = some scalar →
      scalar.isValidChar ∧ 0x80 ≤ scalar := by
  rw [leadOf] at announced
  split_ifs at announced
  all_goals
    simp only [Option.some.injEq, Prod.mk.injEq] at announced
    obtain ⟨rfl, rfl, rfl, rfl⟩ := announced
    refine ⟨by omega, fun bytes scalar complete => ?_⟩
    obtain ⟨least, greatest⟩ := takeTails_scalar complete
    rw [Nat.isValidChar]
    omega

/-- A chunk that starts with another byte takes no ASCII byte and is no ASCII character. -/
theorem decodeChunk_other {lead : UInt8} (other : 0x80 ≤ lead.toNat) (rest : List UInt8) :
    0x80 ≤ (decodeChunk lead rest).1.toNat ∧ (decodeChunk lead rest).2 ≤ rest.length ∧
      ∀ tail ∈ rest.take (decodeChunk lead rest).2, 0x80 ≤ tail.toNat := by
  have notAscii : ¬ lead.toNat < 0x80 := by omega
  have replaced : 0x80 ≤ replacement.toNat := by decide
  rw [decodeChunk, if_neg notAscii]
  cases announced : leadOf lead.toNat with
  | none => exact ⟨replaced, Nat.zero_le _, nofun⟩
  | some values =>
      obtain ⟨owed, low, high, value⟩ := values
      obtain ⟨tails, scalars⟩ := leadOf_scalar announced
      obtain ⟨short, taken⟩ := takeTails_taken high value rest tails
      refine ⟨?_, short, taken⟩
      simp only
      cases scalar : (takeTails owed low high value rest).2 with
      | none => exact replaced
      | some scalar' =>
          obtain ⟨valid, above⟩ := scalars rest scalar' scalar
          rw [Option.map_some, Option.getD_some, ofNat_toNat_of_valid valid]
          exact above

/-! ## Cutting and folding the bytes -/

/-- An ASCII byte is taken by no chunk, so it ends the tails as the end of the bytes does. -/
theorem takeTails_append_ascii {owed low high value : ℕ} (above : 0x80 ≤ low) {c : UInt8}
    (ascii : c.toNat < 0x80) (bytes after : List UInt8) :
    takeTails owed low high value (bytes ++ c :: after) = takeTails owed low high value bytes := by
  induction owed generalizing low high value bytes with
  | zero => rw [takeTails, takeTails]
  | succ owed ih =>
      cases bytes with
      | nil => rw [List.nil_append, takeTails, if_neg (by omega), takeTails]
      | cons tail rest => rw [List.cons_append, takeTails, takeTails, ih (Nat.le_refl 0x80)]

theorem decodeChunk_append_ascii (lead : UInt8) {c : UInt8} (ascii : c.toNat < 0x80)
    (bytes after : List UInt8) :
    decodeChunk lead (bytes ++ c :: after) = decodeChunk lead bytes := by
  rw [decodeChunk, decodeChunk]
  split_ifs with plain
  · rfl
  · cases announced : leadOf lead.toNat with
    | none => rfl
    | some values =>
        obtain ⟨owed, low, high, value⟩ := values
        simp only [takeTails_append_ascii (leadOf_scalar announced).1 ascii]

/-- A chunk takes no more bytes than there are. -/
theorem decodeChunk_length (lead : UInt8) (rest : List UInt8) :
    (decodeChunk lead rest).2 ≤ rest.length := by
  rcases Nat.lt_or_ge lead.toNat 0x80 with ascii | other
  · rw [decodeChunk_ascii ascii]
    exact Nat.zero_le _
  · exact (decodeChunk_other other rest).2.1

/-- **Bytes may be cut at an ASCII byte.** -/
theorem fromUtf8Lossy_append_ascii {c : UInt8} (ascii : c.toNat < 0x80) (bytes after : List UInt8) :
    fromUtf8Lossy (bytes ++ c :: after) = fromUtf8Lossy bytes ++ fromUtf8Lossy (c :: after) := by
  induction length : bytes.length using Nat.strongRecOn generalizing bytes with
  | ind n ih =>
      cases bytes with
      | nil => rfl
      | cons lead rest =>
          have short := decodeChunk_length lead rest
          rw [List.cons_append, fromUtf8Lossy_cons, fromUtf8Lossy_cons,
            decodeChunk_append_ascii lead ascii, List.drop_append_of_le_length short,
            ih _ (by rw [← length, List.length_drop, List.length_cons]; omega) _ rfl, List.cons_append]

/-- There are no more characters than bytes. -/
theorem length_fromUtf8Lossy_le (bytes : List UInt8) :
    (fromUtf8Lossy bytes).length ≤ bytes.length := by
  induction length : bytes.length using Nat.strongRecOn generalizing bytes with
  | ind n ih =>
      cases bytes with
      | nil => exact Nat.zero_le _
      | cons lead rest =>
          have dropped : (rest.drop (decodeChunk lead rest).2).length ≤ rest.length := by simp
          have shorter : (rest.drop (decodeChunk lead rest).2).length < n := by
            rw [← length, List.length_cons]
            omega
          have later := ih _ shorter _ rfl
          rw [fromUtf8Lossy_cons, List.length_cons]
          omega

/-- A map of the bytes that touches ASCII only. -/
structure FoldsAscii (f : UInt8 → UInt8) : Prop where
  keeps : ∀ b : UInt8, 0x80 ≤ b.toNat → f b = b
  ascii : ∀ b : UInt8, b.toNat < 0x80 → (f b).toNat < 0x80

theorem takeTails_map {f : UInt8 → UInt8} (folds : FoldsAscii f) {owed low high value : ℕ}
    (above : 0x80 ≤ low) (bytes : List UInt8) :
    takeTails owed low high value (bytes.map f) = takeTails owed low high value bytes := by
  induction owed generalizing low high value bytes with
  | zero => rw [takeTails, takeTails]
  | succ owed ih =>
      cases bytes with
      | nil => rfl
      | cons tail rest =>
          rw [List.map_cons, takeTails, takeTails]
          rcases Nat.lt_or_ge tail.toNat 0x80 with ascii | other
          · have folded := folds.ascii tail ascii
            rw [if_neg (by omega), if_neg (by omega)]
          · rw [folds.keeps tail other, ih (Nat.le_refl 0x80)]

/-- Folding the ASCII bytes folds the ASCII characters and leaves the others alone. -/
theorem map_fromUtf8Lossy {f : UInt8 → UInt8} (folds : FoldsAscii f) {g : Char → Char}
    (same : ∀ b : UInt8, b.toNat < 0x80 → g (Char.ofNat (f b).toNat) = g (Char.ofNat b.toNat))
    (bytes : List UInt8) :
    (fromUtf8Lossy (bytes.map f)).map g = (fromUtf8Lossy bytes).map g := by
  induction length : bytes.length using Nat.strongRecOn generalizing bytes with
  | ind n ih =>
      cases bytes with
      | nil => rfl
      | cons lead rest =>
          have shorter : ∀ taken, (rest.drop taken).length < n := by
            intro taken
            rw [← length, List.length_drop, List.length_cons]
            omega
          rw [List.map_cons, fromUtf8Lossy_cons, fromUtf8Lossy_cons, List.map_cons, List.map_cons]
          rcases Nat.lt_or_ge lead.toNat 0x80 with ascii | other
          · rw [decodeChunk_ascii ascii, decodeChunk_ascii (folds.ascii lead ascii), ← List.map_drop,
              ih _ (shorter 0) _ rfl, same lead ascii]
          · have chunk : decodeChunk (f lead) (rest.map f) = decodeChunk lead rest := by
              rw [folds.keeps lead other, decodeChunk, decodeChunk, if_neg (by omega),
                if_neg (by omega)]
              cases announced : leadOf lead.toNat with
              | none => rfl
              | some values =>
                  obtain ⟨owed, low, high, value⟩ := values
                  simp only [takeTails_map folds (leadOf_scalar announced).1]
            rw [chunk, ← List.map_drop, ih _ (shorter _) _ rfl]

/-! ## Well-formed bytes -/

theorem toNat_byte {n : ℕ} (inside : n < 256) : (UInt8.ofNat n).toNat = n := by
  rw [UInt8.toNat_ofNat']
  exact Nat.mod_eq_of_lt inside

/-- A chunk of a known lead. -/
theorem decodeChunk_lead {lead : ℕ} (inside : lead < 256) (other : 0x80 ≤ lead)
    {owed low high value : ℕ} (announced : leadOf lead = some (owed, low, high, value))
    (rest : List UInt8) :
    decodeChunk (.ofNat lead) rest =
      (((takeTails owed low high value rest).2.map Char.ofNat).getD replacement,
        (takeTails owed low high value rest).1) := by
  rw [decodeChunk, toNat_byte inside, if_neg (by omega), announced]

/-- A tail that is announced is taken. -/
theorem takeTails_cons {owed low high value tail : ℕ} (inside : tail < 256)
    (announced : low ≤ tail ∧ tail ≤ high) (rest : List UInt8) :
    takeTails (owed + 1) low high value (.ofNat tail :: rest) =
      ((takeTails owed 0x80 0xBF (value * 64 + (tail - 0x80)) rest).1 + 1,
        (takeTails owed 0x80 0xBF (value * 64 + (tail - 0x80)) rest).2) := by
  rw [takeTails, toNat_byte inside, if_pos announced]

/-- A scalar of two bytes. -/
theorem fromUtf8Lossy_two {v : ℕ} (least : 0x80 ≤ v) (greatest : v ≤ 0x7ff) (rest : List UInt8) :
    fromUtf8Lossy (.ofNat (v / 64 % 0x20 + 0xc0) :: .ofNat (v % 0x40 + 0x80) :: rest) =
      Char.ofNat v :: fromUtf8Lossy rest := by
  have announced : leadOf (v / 64 % 0x20 + 0xc0) =
      some (1, 0x80, 0xBF, v / 64 % 0x20 + 0xc0 - 0xC0) := if_pos (by omega)
  have scalar : (v / 64 % 0x20 + 0xc0 - 0xC0) * 64 + (v % 0x40 + 0x80 - 0x80) = v := by omega
  rw [fromUtf8Lossy_cons, decodeChunk_lead (by omega) (by omega) announced,
    takeTails_cons (by omega) (by omega), scalar]
  rfl

/-- The lead byte of three, with what it leaves for the first tail. -/
theorem leadOf_three {v : ℕ} (least : 0x7ff < v) (greatest : v ≤ 0xffff)
    (scalar : v < 0xD800 ∨ 0xDFFF < v) :
    ∃ low high, leadOf (v / 4096 % 0x10 + 0xe0) = some (2, low, high, v / 4096) ∧
      low ≤ v / 64 % 0x40 + 0x80 ∧ v / 64 % 0x40 + 0x80 ≤ high := by
  have block : v / 4096 = 0 ∨ v / 4096 = 0xD ∨ v / 4096 ≠ 0 ∧ v / 4096 ≠ 0xD := by omega
  rcases block with first | last | ⟨other, other'⟩
  · exact ⟨0xA0, 0xBF, by rw [first]; rfl, by omega, by omega⟩
  · exact ⟨0x80, 0x9F, by rw [last]; rfl, by omega, by omega⟩
  · refine ⟨0x80, 0xBF, ?_, by omega, by omega⟩
    have value : v / 4096 % 0x10 + 0xe0 - 0xE0 = v / 4096 := by omega
    rw [leadOf, if_neg (by omega), if_neg (by omega), if_neg (by omega), if_pos (by omega), value]

/-- A scalar of three bytes. -/
theorem fromUtf8Lossy_three {v : ℕ} (least : 0x7ff < v) (greatest : v ≤ 0xffff)
    (scalar : v < 0xD800 ∨ 0xDFFF < v) (rest : List UInt8) :
    fromUtf8Lossy (.ofNat (v / 4096 % 0x10 + 0xe0) :: .ofNat (v / 64 % 0x40 + 0x80) ::
      .ofNat (v % 0x40 + 0x80) :: rest) = Char.ofNat v :: fromUtf8Lossy rest := by
  obtain ⟨low, high, announced, above, below⟩ := leadOf_three least greatest scalar
  have whole : (v / 4096 * 64 + (v / 64 % 0x40 + 0x80 - 0x80)) * 64 + (v % 0x40 + 0x80 - 0x80) = v := by
    omega
  rw [fromUtf8Lossy_cons, decodeChunk_lead (by omega) (by omega) announced,
    takeTails_cons (by omega) ⟨above, below⟩, takeTails_cons (by omega) (by omega), whole]
  rfl

/-- The lead byte of four, with what it leaves for the first tail. -/
theorem leadOf_four {v : ℕ} (least : 0xffff < v) (greatest : v < 0x110000) :
    ∃ low high, leadOf (v / 262144 % 0x08 + 0xf0) = some (3, low, high, v / 262144) ∧
      low ≤ v / 4096 % 0x40 + 0x80 ∧ v / 4096 % 0x40 + 0x80 ≤ high := by
  have block : v / 262144 = 0 ∨ v / 262144 = 4 ∨ v / 262144 ≠ 0 ∧ v / 262144 ≠ 4 := by omega
  rcases block with first | last | ⟨other, other'⟩
  · exact ⟨0x90, 0xBF, by rw [first]; rfl, by omega, by omega⟩
  · exact ⟨0x80, 0x8F, by rw [last]; rfl, by omega, by omega⟩
  · refine ⟨0x80, 0xBF, ?_, by omega, by omega⟩
    have value : v / 262144 % 0x08 + 0xf0 - 0xF0 = v / 262144 := by omega
    rw [leadOf, if_neg (by omega), if_neg (by omega), if_neg (by omega), if_neg (by omega),
      if_neg (by omega), if_pos (by omega), value]

/-- A scalar of four bytes. -/
theorem fromUtf8Lossy_four {v : ℕ} (least : 0xffff < v) (greatest : v < 0x110000)
    (rest : List UInt8) :
    fromUtf8Lossy (.ofNat (v / 262144 % 0x08 + 0xf0) :: .ofNat (v / 4096 % 0x40 + 0x80) ::
      .ofNat (v / 64 % 0x40 + 0x80) :: .ofNat (v % 0x40 + 0x80) :: rest) =
        Char.ofNat v :: fromUtf8Lossy rest := by
  obtain ⟨low, high, announced, above, below⟩ := leadOf_four least greatest
  have whole : ((v / 262144 * 64 + (v / 4096 % 0x40 + 0x80 - 0x80)) * 64 +
      (v / 64 % 0x40 + 0x80 - 0x80)) * 64 + (v % 0x40 + 0x80 - 0x80) = v := by omega
  rw [fromUtf8Lossy_cons, decodeChunk_lead (by omega) (by omega) announced,
    takeTails_cons (by omega) ⟨above, below⟩, takeTails_cons (by omega) (by omega),
    takeTails_cons (by omega) (by omega), whole]
  rfl

/-- A character beyond ASCII is a lead byte and the tails that it announces. -/
theorem utf8EncodeChar_announced {c : Char} (other : 0x80 ≤ c.toNat) :
    ∃ lead tails low high value, String.utf8EncodeChar c = lead :: tails ∧ 0x80 ≤ lead.toNat ∧
      leadOf lead.toNat = some (tails.length, low, high, value) ∧
      ∀ rest, takeTails tails.length low high value (tails ++ rest) = (tails.length, some c.toNat) := by
  have valid : c.val.toNat.isValidChar := c.valid
  rw [Nat.isValidChar] at valid
  change 0x80 ≤ c.val.toNat at other
  generalize code : c.val.toNat = v at valid other
  have whole : c.toNat = v := code
  rw [String.utf8EncodeChar]
  simp only [code, whole]
  rw [if_neg (by omega)]
  split_ifs with two three
  · have announced : leadOf (v / 64 % 0x20 + 0xc0) =
        some (1, 0x80, 0xBF, v / 64 % 0x20 + 0xc0 - 0xC0) := if_pos (by omega)
    have scalar : (v / 64 % 0x20 + 0xc0 - 0xC0) * 64 + (v % 0x40 + 0x80 - 0x80) = v := by omega
    refine ⟨_, _, 0x80, 0xBF, v / 64 % 0x20 + 0xc0 - 0xC0, rfl, ?_, ?_, fun rest => ?_⟩
    · rw [toNat_byte (by omega)]
      omega
    · rw [toNat_byte (by omega)]
      exact announced
    · rw [List.singleton_append, List.length_singleton, takeTails_cons (by omega) (by omega), scalar]
      rfl
  · obtain ⟨low, high, announced, above, below⟩ := leadOf_three (v := v) (by omega) three (by omega)
    have scalar : (v / 4096 * 64 + (v / 64 % 0x40 + 0x80 - 0x80)) * 64 + (v % 0x40 + 0x80 - 0x80) = v := by
      omega
    refine ⟨_, _, low, high, v / 4096, rfl, ?_, ?_, fun rest => ?_⟩
    · rw [toNat_byte (by omega)]
      omega
    · rw [toNat_byte (by omega)]
      exact announced
    · simp only [List.length_cons, List.length_nil, List.cons_append, List.nil_append]
      rw [takeTails_cons (by omega) ⟨above, below⟩, takeTails_cons (by omega) (by omega), scalar]
      rfl
  · obtain ⟨low, high, announced, above, below⟩ := leadOf_four (v := v) (by omega) (by omega)
    have scalar : ((v / 262144 * 64 + (v / 4096 % 0x40 + 0x80 - 0x80)) * 64 +
        (v / 64 % 0x40 + 0x80 - 0x80)) * 64 + (v % 0x40 + 0x80 - 0x80) = v := by omega
    refine ⟨_, _, low, high, v / 262144, rfl, ?_, ?_, fun rest => ?_⟩
    · rw [toNat_byte (by omega)]
      omega
    · rw [toNat_byte (by omega)]
      exact announced
    · simp only [List.length_cons, List.length_nil, List.cons_append, List.nil_append]
      rw [takeTails_cons (by omega) ⟨above, below⟩, takeTails_cons (by omega) (by omega),
        takeTails_cons (by omega) (by omega), scalar]
      rfl

/-- No byte of a character beyond ASCII is ASCII. -/
theorem utf8EncodeChar_other {c : Char} (other : 0x80 ≤ c.toNat) :
    ∀ b ∈ String.utf8EncodeChar c, 0x80 ≤ b.toNat := by
  obtain ⟨lead, tails, low, high, value, bytes, beyond, announced, taken⟩ := utf8EncodeChar_announced other
  have each : ∀ tail ∈ (tails ++ []).take (takeTails tails.length low high value (tails ++ [])).1,
      0x80 ≤ tail.toNat := (takeTails_taken high value _ (leadOf_scalar announced).1).2
  rw [taken, List.take_left] at each
  rw [bytes]
  exact List.forall_mem_cons.mpr ⟨beyond, each⟩

/-- A character is decoded from its own bytes. -/
theorem fromUtf8Lossy_encode (c : Char) (rest : List UInt8) :
    fromUtf8Lossy (String.utf8EncodeChar c ++ rest) = c :: fromUtf8Lossy rest := by
  have valid : c.val.toNat.isValidChar := c.valid
  rw [Nat.isValidChar] at valid
  have whole : Char.ofNat c.val.toNat = c := Char.ofNat_toNat c
  rw [String.utf8EncodeChar]
  split_ifs with one two three
  · have byte : (UInt8.ofNat c.val.toNat).toNat = c.val.toNat := toNat_byte (by omega)
    rw [List.singleton_append, fromUtf8Lossy_cons, decodeChunk_ascii (by rw [byte]; omega), byte, whole]
    rfl
  · have decoded := fromUtf8Lossy_two (Nat.lt_of_not_le one) two rest
    rwa [whole] at decoded
  · have decoded := fromUtf8Lossy_three (Nat.lt_of_not_le two) three (by omega) rest
    rwa [whole] at decoded
  · have decoded := fromUtf8Lossy_four (Nat.lt_of_not_le three) (by omega) rest
    rwa [whole] at decoded

/-- Characters are decoded from their own bytes, whatever follows. -/
theorem fromUtf8Lossy_append (chars : List Char) (rest : List UInt8) :
    fromUtf8Lossy (chars.flatMap String.utf8EncodeChar ++ rest) = chars ++ fromUtf8Lossy rest := by
  induction chars with
  | nil => rfl
  | cons c chars ih =>
      rw [List.flatMap_cons, List.append_assoc, fromUtf8Lossy_encode, ih, List.cons_append]

/-- **Decoding inverts encoding.** -/
theorem fromUtf8Lossy_flatMap (chars : List Char) :
    fromUtf8Lossy (chars.flatMap String.utf8EncodeChar) = chars := by
  have decoded := fromUtf8Lossy_append chars []
  rwa [List.append_nil, show fromUtf8Lossy [] = [] from rfl, List.append_nil] at decoded

end WaitingRoom.Text
