import WaitingRoom.Edge.Rules
import WaitingRoom.Text.Percent

/-!
# The queue without a script

Where a visitor without a script is sent: the `next` of the waiting page's own address, if it names a
path of this site (`safeNext`). What is sent comes back: an encoded path is read as it was
(`safeNext_encodeComponent`).
-/

set_option autoImplicit false

namespace WaitingRoom.NoJs

open Text Edge

/-- `u8::from_str_radix(hex, 16)`, of two bytes: a sign may come first. -/
def fromHex (first second : UInt8) : Option UInt8 :=
  if first = 43 then (hexValue second.toNat).map UInt8.ofNat else hexOctet first.toNat second.toNat

/-- The bytes of an escaped text; a `%` that starts no escape spoils it. -/
def decodeBytes : List UInt8 → Option (List UInt8)
  | 37 :: first :: second :: rest =>
      match fromHex first second with
      | some b => (decodeBytes rest).map (b :: ·)
      | none => none
  | 37 :: _ => none
  | 43 :: rest => (decodeBytes rest).map (32 :: ·)
  | b :: rest => (decodeBytes rest).map (b :: ·)
  | [] => some []

/-- `String::from_utf8(bytes).ok()`. -/
def fromUtf8 (bytes : List UInt8) : Option String := String.fromUTF8? bytes.toByteArray

/-- A text that is escaped, unless it is no text. -/
def percentDecode (s : String) : Option String := (decodeBytes (utf8 s)).bind fromUtf8

/-- `char::is_control`. -/
def isControl (c : Char) : Bool := c.toNat < 0x20 || (0x7f ≤ c.toNat && c.toNat ≤ 0x9f)

/-- A path of this site, from a raw `next`; anything else is `/`. -/
def safeNext (raw : Option String) : String :=
  match raw.bind percentDecode with
  | none => "/"
  | some decoded =>
      let first := decoded.toList[0]?
      let second := decoded.toList[1]?
      let controls := decoded.toList.any isControl
      if first ≠ some '/' ∨ (second = some '/' ∨ second = some '\\') ∨ controls then "/" else decoded

/-- `pair.strip_prefix("next=")`. -/
def stripNext (pair : List Char) : Option (List Char) :=
  if "next=".toList.isPrefixOf pair then some (pair.drop 5) else none

/-- The `next` parameter of a query, still escaped. -/
def nextParam (query : String) : Option String :=
  (((query.toList.dropWhile (· = '?')).splitOn '&').findSome? stripNext).map String.ofList

/-- A byte that is not escaped. -/
def keeps (b : UInt8) : Bool :=
  (65 ≤ b && b ≤ 90) || (97 ≤ b && b ≤ 122) || (48 ≤ b && b ≤ 57) || [45, 95, 46, 126].contains b

/-- A byte a character. -/
def asciiText (bytes : List UInt8) : String := String.ofList (bytes.map fun b => Char.ofNat b.toNat)

/-- Escape all but the unreserved characters. -/
def encodeComponent (s : String) : String :=
  asciiText (escape keeps (utf8 s))

/-! ## Reading what was written -/

/-- Escapes are read back, whatever was kept. -/
theorem decodeBytes_escape {kept : UInt8 → Bool} (percent : kept 37 = false) (plus : kept 43 = false)
    (bytes : List UInt8) : decodeBytes (escape kept bytes) = some bytes := by
  induction bytes with
  | nil => rfl
  | cons b bytes ih =>
      rw [escape_cons]
      split_ifs with holds
      · have other : b ≠ 37 ∧ b ≠ 43 := by
          constructor
          · rintro rfl
            exact absurd (percent.symm.trans holds) nofun
          · rintro rfl
            exact absurd (plus.symm.trans holds) nofun
        rw [List.singleton_append, decodeBytes, ih]
        · rfl
        · exact fun first second rest same => absurd same other.1
        · exact fun same => absurd same other.1
        · exact other.2
      · have signless : hexByte (b.toNat / 16) ≠ 43 := by
          have digits : ∀ n < 16, hexByte n ≠ 43 := by decide
          have small : b.toNat < 256 := b.toNat_lt
          exact digits _ (by omega)
        rw [escapeByte, List.cons_append, List.cons_append, List.cons_append, List.nil_append, decodeBytes,
          fromHex, if_neg signless, hexOctet_hexByte, ih]
        rfl

theorem fromUtf8_utf8 (text : String) : fromUtf8 (utf8 text) = some text := by
  have valid : (utf8 text).toByteArray.IsValidUTF8 := ⟨text.toList, rfl⟩
  rw [fromUtf8, String.fromUTF8?, dif_pos valid]
  exact congrArg some (String.ofList_toList (s := text))

/-- The bytes of a text of ASCII bytes. -/
theorem utf8_asciiText {bytes : List UInt8} (ascii : ∀ b ∈ bytes, b.toNat < 0x80) :
    utf8 (asciiText bytes) = bytes := by
  rw [utf8, asciiText, String.toList_ofList]
  induction bytes with
  | nil => rfl
  | cons b bytes ih =>
      have plain : b.toNat < 0x80 := ascii b List.mem_cons_self
      have code : (Char.ofNat b.toNat).val.toNat = b.toNat :=
        ofNat_toNat_of_valid (Or.inl (by omega))
      have byte : String.utf8EncodeChar (Char.ofNat b.toNat) = [b] := by
        rw [String.utf8EncodeChar]
        simp only [code]
        rw [if_pos (by omega), UInt8.ofNat_toNat]
      rw [List.map_cons, List.flatMap_cons, byte,
        ih fun other member => ascii other (List.mem_cons_of_mem b member)]
      rfl

/-- An escaped text of ASCII is read back. -/
theorem percentDecode_escape {kept : UInt8 → Bool} (percent : kept 37 = false) (plus : kept 43 = false)
    (ascii : ∀ b, kept b → b.toNat < 0x80) (text : String) :
    percentDecode (asciiText (escape kept (utf8 text))) = some text := by
  have plain : ∀ b ∈ escape kept (utf8 text), b.toNat < 0x80 := by
    intro b member
    rcases mem_escape member with holds | escaped
    · exact ascii b holds
    · exact isEscape_ascii escaped
  rw [percentDecode, utf8_asciiText plain, decodeBytes_escape percent plus, Option.bind_some, fromUtf8_utf8]

/-! ## Paths of this site -/

/-- A path that stays on this site, whatever browser reads it. -/
structure OnSite (path : String) : Prop where
  rooted : path.toList[0]? = some '/'
  second : path.toList[1]? ≠ some '/' ∧ path.toList[1]? ≠ some '\\'
  plain : path.toList.any isControl = false

theorem safeNext_decoded {raw : Option String} {path : String} (decodes : raw.bind percentDecode = some path)
    (onSite : OnSite path) : safeNext raw = path := by
  rw [safeNext, decodes]
  refine if_neg ?_
  rintro (other | (slash | backslash) | controls)
  · exact other onSite.rooted
  · exact onSite.second.1 slash
  · exact onSite.second.2 backslash
  · exact absurd (onSite.plain.symm.trans controls) nofun

/-- Whatever a query says, the visitor stays on this site. -/
theorem onSite_safeNext (raw : Option String) : OnSite (safeNext raw) := by
  have root : OnSite "/" := ⟨by decide, by decide, by decide⟩
  rw [safeNext]
  split
  · exact root
  · next decoded _ =>
      simp only
      split_ifs with unsafe'
      · exact root
      · rw [not_or, not_or, not_or, not_not, Bool.not_eq_true] at unsafe'
        exact ⟨unsafe'.1, unsafe'.2.1, unsafe'.2.2⟩

/-! ## Queries -/

/-- The first parameter of that name. -/
theorem nextParam_pairs {query : String} {pairs : List (List Char)} (apart : ∀ pair ∈ pairs, '&' ∉ pair)
    (some : pairs ≠ []) (shape : query.toList.dropWhile (· = '?') = List.intercalate ['&'] pairs) :
    nextParam query = (pairs.findSome? stripNext).map String.ofList := by
  rw [nextParam, shape, List.splitOn_intercalate '&' apart some]

theorem mem_asciiText {c : Char} {bytes : List UInt8} (member : c ∈ (asciiText bytes).toList) :
    .ofNat c.toNat ∈ bytes := by
  rw [asciiText, String.toList_ofList] at member
  obtain ⟨b, found, rfl⟩ := List.mem_map.mp member
  have small : b.toNat < 256 := b.toNat_lt
  rw [ofNat_toNat_of_valid (Or.inl (by omega)), UInt8.ofNat_toNat]
  exact found

/-- The parameter that was written. -/
theorem stripNext_append (value : List Char) : stripNext ("next=".toList ++ value) = some value := rfl

/-- The parameter of a query that was written. -/
theorem nextParam_encodeComponent (path : String) :
    nextParam ("next=" ++ encodeComponent path) = some (encodeComponent path) := by
  have apart : '&' ∉ "next=".toList ++ (encodeComponent path).toList := by
    rw [List.mem_append, not_or]
    refine ⟨by decide, fun member => ?_⟩
    exact not_mem_escape (by decide) (by decide) (utf8 path) (mem_asciiText member)
  have shape : ("next=" ++ encodeComponent path).toList.dropWhile (· = '?') =
      List.intercalate ['&'] ["next=".toList ++ (encodeComponent path).toList] := by
    have start : "next=".toList = ['n', 'e', 'x', 't', '='] := rfl
    rw [String.toList_append, List.intercalate_singleton, start, List.cons_append]
    exact List.dropWhile_cons_of_neg (by decide)
  rw [nextParam_pairs (List.forall_mem_singleton.mpr apart) (List.cons_ne_nil _ _) shape,
    List.findSome?_singleton, stripNext_append, Option.map_some, String.ofList_toList]

/-- **A path that is sent comes back.** -/
theorem safeNext_encodeComponent {path : String} (onSite : OnSite path) :
    safeNext (nextParam ("next=" ++ encodeComponent path)) = path := by
  have ascii : ∀ b, keeps b → b.toNat < 0x80 := forall_byte (by decide +kernel)
  refine safeNext_decoded ?_ onSite
  rw [nextParam_encodeComponent, Option.bind_some]
  exact percentDecode_escape rfl rfl ascii path

end WaitingRoom.NoJs
