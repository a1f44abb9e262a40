import WaitingRoom.Edge.Matching
import WaitingRoom.Text.Percent

/-!
# Where an admitted visitor goes

The waiting page's script reads the `next` parameter of its own address (`nextDestination`), as the
browser keeps that address (`search`). A component that was escaped is read back, whatever its encoder
kept of ASCII (`decodeURIComponent_escape`).
-/

set_option autoImplicit false

namespace WaitingRoom.Page

open Text Edge

/-- A byte that a browser keeps in a query. -/
def inQuery (b : UInt8) : Bool := 0x20 < b && b < 0x7f && !([34, 35, 39, 60, 62].contains b)

/-- `location.search` of a page that was navigated to: from the first `?` to the fragment, with what a
query does not hold escaped. -/
def search (location : Units) : Units :=
  (escape inQuery (bytesOf ((location.takeWhile (· ≠ 35)).dropWhile (· ≠ 63)))).map widen

/-! ## Components -/

/-- A unit of a component, or an escape. -/
inductive Piece where
  | unit (unit : UInt16)
  | octet (b : UInt8)

/-- The escapes of a component, unless a `%` starts none. -/
def pieces : Units → Option (List Piece)
  | 37 :: first :: second :: rest =>
      match hexOctet first.toNat second.toNat with
      | some b => (pieces rest).map (.octet b :: ·)
      | none => none
  | 37 :: _ => none
  | unit :: rest => (pieces rest).map (.unit unit :: ·)
  | [] => some []

/-- The escapes up to the next unit. -/
def octetsOf : List Piece → List UInt8
  | .octet b :: rest => b :: octetsOf rest
  | _ => []

/-- Escapes are UTF-8, and units stand for themselves. -/
def decodePieces : ℕ → List Piece → Option Units
  | _, [] => some []
  | taken + 1, _ :: rest => decodePieces taken rest
  | 0, .unit unit :: rest => (decodePieces 0 rest).map (unit :: ·)
  | 0, .octet b :: rest =>
      if b.toNat < 0x80 then (decodePieces 0 rest).map (.ofNat b.toNat :: ·)
      else
        match leadOf b.toNat with
        | none => none
        | some (owed, low, high, value) =>
            match (takeTails owed low high value (octetsOf rest)).2 with
            | none => none
            | some scalar => (decodePieces owed rest).map (encodeUtf16 (Char.ofNat scalar) ++ ·)

/-- `decodeURIComponent`: what is no escape, or no UTF-8, throws. -/
def decodeURIComponent (text : Units) : Except JsError Units :=
  match (pieces text).bind (decodePieces 0) with
  | some units => .ok units
  | none => .error .uriError

/-! ## The destination -/

/-- `/[?&]next=([^&]*)/`. -/
def nextMatch : Units → Option Units
  | [] => none
  | unit :: rest =>
      if (unit = 63 ∨ unit = 38) ∧ (utf16 "next=").isPrefixOf rest then
        some ((rest.drop 5).takeWhile (· ≠ 38))
      else nextMatch rest

/-- Where a successful redemption navigates: the request the gate refused, or the root. -/
def nextDestination (search : Units) : Units :=
  match nextMatch search with
  | none => utf16 "/"
  | some component =>
      match decodeURIComponent component with
      | .error _ => utf16 "/"
      | .ok next =>
          if next[0]? ≠ some 47 ∨ next[1]? = some 47 ∨ next[1]? = some 92 then utf16 "/" else next

/-! ## Reading what was escaped -/

/-- A byte as an encoder writes it. -/
def pieceOf (kept : UInt8 → Bool) (b : UInt8) : Piece := if kept b then .unit (widen b) else .octet b

theorem pieces_escape {kept : UInt8 → Bool} (percent : kept 37 = false) (bytes : List UInt8) :
    pieces ((escape kept bytes).map widen) = some (bytes.map (pieceOf kept)) := by
  induction bytes with
  | nil => rfl
  | cons b bytes ih =>
      rw [escape_cons, List.map_append, List.map_cons, pieceOf]
      split_ifs with holds
      · have other : widen b ≠ 37 := by
          intro same
          obtain rfl : b = 37 := widen_injective same
          exact absurd (percent.symm.trans holds) nofun
        rw [List.map_singleton, List.singleton_append, pieces, ih]
        · rfl
        · exact fun first second rest same => absurd same other
        · exact fun same => absurd same other
      · simp only [escapeByte, List.map_cons, List.map_nil, List.cons_append, List.nil_append]
        have start : widen 37 = 37 := rfl
        rw [start, pieces, toNat_widen, toNat_widen, hexOctet_hexByte, ih]
        rfl

theorem decodePieces_skip (skipped rest : List Piece) :
    decodePieces skipped.length (skipped ++ rest) = decodePieces 0 rest := by
  induction skipped with
  | nil => rfl
  | cons piece skipped ih => exact ih

theorem octetsOf_append (octets : List UInt8) (rest : List Piece) :
    octetsOf (octets.map .octet ++ rest) = octets ++ octetsOf rest := by
  induction octets with
  | nil => rfl
  | cons b octets ih => exact congrArg (b :: ·) ih

/-- A character is read from its own pieces. -/
theorem decodePieces_character {kept : UInt8 → Bool} (ascii : ∀ b, kept b → b.toNat < 0x80) (c : Char)
    (rest : List Piece) :
    decodePieces 0 ((String.utf8EncodeChar c).map (pieceOf kept) ++ rest) =
      (decodePieces 0 rest).map (encodeUtf16 c ++ ·) := by
  by_cases plain : c.toNat < 0x80
  · have byte : String.utf8EncodeChar c = [.ofNat c.toNat] := if_pos (Nat.le_of_lt_succ plain)
    have code : (UInt8.ofNat c.toNat).toNat = c.toNat := toNat_byte (by omega)
    rw [byte, List.map_singleton, List.singleton_append, pieceOf, encodeUtf16_ascii plain]
    split_ifs with holds
    · rw [decodePieces, widen, code]
      rfl
    · rw [decodePieces, code, if_pos plain]
      rfl
  · obtain ⟨lead, tails, low, high, value, bytes, beyond, announced, taken⟩ :=
      utf8EncodeChar_announced (Nat.le_of_not_lt plain)
    have others : ∀ b ∈ lead :: tails, 0x80 ≤ b.toNat := bytes ▸ utf8EncodeChar_other (Nat.le_of_not_lt plain)
    have octets : (lead :: tails).map (pieceOf kept) = (lead :: tails).map Piece.octet := by
      refine List.map_congr_left fun b member => if_neg fun holds => ?_
      exact absurd (ascii b holds) (Nat.not_lt_of_le (others b member))
    have owed : (tails.map Piece.octet).length = tails.length := List.length_map _
    rw [bytes, octets, List.map_cons, List.cons_append, decodePieces, if_neg (Nat.not_lt_of_le beyond), announced]
    simp only [octetsOf_append, taken]
    rw [← owed, decodePieces_skip, Char.ofNat_toNat]

/-- **A component is read back**, whatever its encoder kept of ASCII. -/
theorem decodeURIComponent_escape {kept : UInt8 → Bool} (percent : kept 37 = false)
    (ascii : ∀ b, kept b → b.toNat < 0x80) (text : String) :
    decodeURIComponent ((escape kept (utf8 text)).map widen) = .ok (utf16 text) := by
  have every : ∀ chars : List Char,
      decodePieces 0 ((chars.flatMap String.utf8EncodeChar).map (pieceOf kept)) =
        some (chars.flatMap encodeUtf16) := by
    intro chars
    induction chars with
    | nil => rfl
    | cons c chars ih =>
        rw [List.flatMap_cons, List.map_append, decodePieces_character ascii, ih]
        rfl
  rw [decodeURIComponent, pieces_escape percent, Option.bind_some, utf8, every]
  rfl

end WaitingRoom.Page
