import Mathlib.Data.List.Basic

/-!
# Base64url

Three bytes are four letters of an alphabet of 64, without padding at the end. Every letter of an
encoding is of the alphabet (`isBase64url_of_mem`), which the dot of a compact signature is not, and
decoding inverts encoding (`decodeBase64url_encode`).
-/

set_option autoImplicit false

namespace WaitingRoom.Text

/-- A letter of the alphabet. -/
def isBase64url (c : Char) : Bool :=
  ('A' ≤ c && c ≤ 'Z') || ('a' ≤ c && c ≤ 'z') || ('0' ≤ c && c ≤ '9') || c == '_' || c == '-'

/-- The letter of six bits. -/
def base64Letter (sextet : ℕ) : Char :=
  if sextet < 26 then Char.ofNat (65 + sextet)
  else if sextet < 52 then Char.ofNat (97 + (sextet - 26))
  else if sextet < 62 then Char.ofNat (48 + (sextet - 52))
  else if sextet = 62 then '-'
  else '_'

/-- Encode bytes without padding. -/
def base64url : List UInt8 → List Char
  | a :: b :: c :: rest =>
      base64Letter (a.toNat / 4) :: base64Letter (a.toNat % 4 * 16 + b.toNat / 16) ::
        base64Letter (b.toNat % 16 * 4 + c.toNat / 64) :: base64Letter (c.toNat % 64) ::
          base64url rest
  | [a, b] =>
      [base64Letter (a.toNat / 4), base64Letter (a.toNat % 4 * 16 + b.toNat / 16),
        base64Letter (b.toNat % 16 * 4)]
  | [a] => [base64Letter (a.toNat / 4), base64Letter (a.toNat % 4 * 16)]
  | [] => []

/-- The six bits of a letter. -/
def base64Value (c : Char) : ℕ :=
  if 'A' ≤ c ∧ c ≤ 'Z' then c.toNat - 65
  else if 'a' ≤ c ∧ c ≤ 'z' then c.toNat - 97 + 26
  else if '0' ≤ c ∧ c ≤ '9' then c.toNat - 48 + 52
  else if c = '-' then 62
  else 63

/-- Decode letters of the alphabet. -/
def decodeBase64url : List Char → List UInt8
  | a :: b :: c :: d :: rest =>
      .ofNat (base64Value a * 4 + base64Value b / 16) ::
        .ofNat (base64Value b % 16 * 16 + base64Value c / 4) ::
          .ofNat (base64Value c % 4 * 64 + base64Value d) :: decodeBase64url rest
  | [a, b, c] =>
      [.ofNat (base64Value a * 4 + base64Value b / 16),
        .ofNat (base64Value b % 16 * 16 + base64Value c / 4)]
  | [a, b] => [.ofNat (base64Value a * 4 + base64Value b / 16)]
  | _ => []

theorem isBase64url_letter (sextet : ℕ) : isBase64url (base64Letter sextet) = true := by
  have small : ∀ n < 64, isBase64url (base64Letter n) = true := by decide
  rcases Nat.lt_or_ge sextet 64 with inside | outside
  · exact small sextet inside
  · have last : base64Letter sextet = base64Letter 63 := by
      simp only [base64Letter]
      rw [if_neg (by omega), if_neg (by omega), if_neg (by omega), if_neg (by omega)]
      rfl
    rw [last]
    exact small 63 (by omega)

/-- **Every letter of an encoding is of the alphabet.** -/
theorem isBase64url_of_mem {bytes : List UInt8} {c : Char} (member : c ∈ base64url bytes) :
    isBase64url c = true := by
  fun_induction base64url bytes with
  | case1 a b d rest ih =>
      simp only [List.mem_cons] at member
      rcases member with rfl | rfl | rfl | rfl | later
      · exact isBase64url_letter _
      · exact isBase64url_letter _
      · exact isBase64url_letter _
      · exact isBase64url_letter _
      · exact ih later
  | case2 a b =>
      simp only [List.mem_cons, List.not_mem_nil, or_false] at member
      rcases member with rfl | rfl | rfl <;> exact isBase64url_letter _
  | case3 a =>
      simp only [List.mem_cons, List.not_mem_nil, or_false] at member
      rcases member with rfl | rfl <;> exact isBase64url_letter _
  | case4 => cases member

theorem base64url_ne_nil {bytes : List UInt8} (some : bytes ≠ []) : base64url bytes ≠ [] := by
  fun_cases base64url bytes with
  | case4 => exact absurd rfl some
  | _ => exact List.cons_ne_nil _ _

/-- Three bytes are four letters. -/
theorem length_base64url (bytes : List UInt8) :
    (base64url bytes).length = (bytes.length * 4 + 2) / 3 := by
  fun_induction base64url bytes with
  | case1 a b c rest ih =>
      simp only [List.length_cons, ih]
      omega
  | case2 a b => simp
  | case3 a => simp
  | case4 => rfl

theorem base64Value_letter {sextet : ℕ} (inside : sextet < 64) :
    base64Value (base64Letter sextet) = sextet := by
  have every : ∀ n < 64, base64Value (base64Letter n) = n := by decide
  exact every sextet inside

/-- **Decoding inverts encoding.** -/
theorem decodeBase64url_encode (bytes : List UInt8) : decodeBase64url (base64url bytes) = bytes := by
  have byte : ∀ (b : UInt8) (n : ℕ), n = b.toNat → UInt8.ofNat n = b := by
    rintro b n rfl
    exact UInt8.ofNat_toNat
  fun_induction base64url bytes with
  | case1 a b c rest ih =>
      have first := a.toNat_lt
      have second := b.toNat_lt
      have third := c.toNat_lt
      rw [decodeBase64url, base64Value_letter (by omega), base64Value_letter (by omega),
        base64Value_letter (by omega), base64Value_letter (by omega), ih, byte a _ (by omega),
        byte b _ (by omega), byte c _ (by omega)]
  | case2 a b =>
      have first := a.toNat_lt
      have second := b.toNat_lt
      rw [decodeBase64url, base64Value_letter (by omega), base64Value_letter (by omega),
        base64Value_letter (by omega), byte a _ (by omega), byte b _ (by omega)]
  | case3 a =>
      have first := a.toNat_lt
      rw [decodeBase64url, base64Value_letter (by omega), base64Value_letter (by omega),
        byte a _ (by omega)]
  | case4 => rfl

theorem base64url_injective : Function.Injective base64url := by
  intro bytes other same
  rw [← decodeBase64url_encode bytes, same, decodeBase64url_encode]

end WaitingRoom.Text
