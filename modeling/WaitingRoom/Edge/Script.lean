import WaitingRoom.Edge.Rules
import WaitingRoom.Text.Base64url
import WaitingRoom.Text.Utf16

/-!
# What the gate's runtime gives it

The gate is a script at the edge. A string is its UTF-16 units, an object a list of its own
properties over the ones every object inherits, and a throwing operation is an `Except`. Case
folding, the JSON parser, the base64url decoder and the keyed hash are the runtime's.
-/

set_option autoImplicit false

namespace WaitingRoom.Edge

open Text

/-- What an operation throws. -/
inductive JsError where
  | typeError
  | uriError
  | syntaxError
  | error (message : String)
  deriving DecidableEq, Repr

/-- A value of the script. -/
inductive JsValue where
  | undefined
  | null
  | bool (value : Bool)
  | number (value : JsNumber)
  | string (text : Units)
  | array (items : List JsValue)
  | object (members : List (Units × JsValue))

/-- What the script runs on. -/
structure Runtime where
  /-- `toLowerCase`. -/
  toLowerCase : Units → Units
  /-- `JSON.parse`, unless it throws. -/
  jsonParse : Units → Option JsValue
  /-- `Buffer.from(text, 'base64url')`. -/
  fromBase64url : Units → List UInt8
  /-- `createHmac('sha256', key).update(message).digest()`. -/
  hmac : List UInt8 → List UInt8 → List UInt8

/-! ## Values -/

namespace JsValue

/-- A value that a condition takes. -/
def truthy : JsValue → Bool
  | .undefined | .null => false
  | .bool value => value
  | .number (.finite value) => decide (value ≠ 0)
  | .number (.infinite _) => true
  | .string text => decide (text ≠ [])
  | .array _ | .object _ => true

/-- A property that no value but an object has, of a value that is neither `undefined` nor `null`. -/
def member (value : JsValue) (name : String) : JsValue :=
  match value with
  | .object members =>
      ((members.find? fun entry => entry.1 = utf16 name).map Prod.snd).getD .undefined
  | _ => .undefined

/-- `===`. An array and an object are equal to themselves only, and neither is ever compared with
itself. -/
def strictEquals : JsValue → JsValue → Bool
  | .undefined, .undefined => true
  | .null, .null => true
  | .bool a, .bool b => a == b
  | .number a, .number b => decide (a = b)
  | .string a, .string b => decide (a = b)
  | _, _ => false

end JsValue

/-! ## Objects -/

/-- A header, a cookie or a query parameter: its value, when that is a string. -/
structure Field where
  value : Option Units
  deriving DecidableEq

/-- The own properties of an object. -/
abbrev Fields := List (Units × Field)

/-- The properties every object inherits. -/
def objectPrototype : List String :=
  ["__defineGetter__", "__defineSetter__", "__lookupGetter__", "__lookupSetter__", "__proto__",
    "constructor", "hasOwnProperty", "isPrototypeOf", "propertyIsEnumerable", "toLocaleString",
    "toString", "valueOf"]

/-- Own-property only. -/
def ownProperty (fields : Fields) (key : Units) : Option Field :=
  (fields.find? fun entry => entry.1 = key).map Prod.snd

/-- A property, own or inherited. What is inherited is there and has no `value`. -/
def property (fields : Fields) (key : Units) : Option Field :=
  match ownProperty fields key with
  | some field => some field
  | none => if key ∈ objectPrototype.map utf16 then some ⟨none⟩ else none

/-- `delete fields[key]`. -/
def deleteField (fields : Fields) (key : String) : Fields :=
  fields.filter fun entry => entry.1 ≠ utf16 key

/-- `fields[key] = { value: value }`. -/
def setField (fields : Fields) (key value : String) : Fields :=
  deleteField fields key ++ [(utf16 key, ⟨some (utf16 value)⟩)]

/-! ## Strings -/

/-- `indexOf`. -/
def indexOf (needle : Units) : Units → Option ℕ
  | [] => if needle = [] then some 0 else none
  | unit :: rest =>
      if needle.isPrefixOf (unit :: rest) then some 0 else (indexOf needle rest).map (· + 1)

/-- The bytes of a string that is hashed. -/
def bytesOf (text : Units) : List UInt8 :=
  (scalars text).flatMap fun c => String.utf8EncodeChar (c.getD replacement)

/-- A character `encodeURIComponent` leaves alone. -/
def isUnreserved (c : Char) : Bool :=
  ('A' ≤ c && c ≤ 'Z') || ('a' ≤ c && c ≤ 'z') || ('0' ≤ c && c ≤ '9') ||
    ['-', '_', '.', '!', '~', '*', Char.ofNat 39, '(', ')'].contains c

/-- An upper-case hex digit. -/
def hexDigit (n : ℕ) : Char := if n < 10 then Char.ofNat (48 + n) else Char.ofNat (55 + n)

/-- `%XX`. -/
def percentEncode (b : UInt8) : List Char := ['%', hexDigit (b.toNat / 16), hexDigit (b.toNat % 16)]

/-- One character of a component. -/
def encodeCharacter (c : Char) : List Char :=
  if isUnreserved c then [c] else (String.utf8EncodeChar c).flatMap percentEncode

/-- `encodeURIComponent`: a surrogate that is not half of a pair throws. -/
def encodeURIComponent (text : Units) : Except JsError Units :=
  match (scalars text).mapM id with
  | some chars => .ok ((chars.flatMap encodeCharacter).flatMap encodeUtf16)
  | none => .error .uriError

theorem mapM_some {α : Type} (items : List α) : (items.map some).mapM id = some items := by
  induction items with
  | nil => rfl
  | cons item items ih =>
      rw [List.map_cons, List.mapM_cons, ih]
      rfl

/-- A string is encoded without a throw. -/
theorem encodeURIComponent_utf16 (text : String) :
    encodeURIComponent (utf16 text) =
      .ok (utf16 (String.ofList (text.toList.flatMap encodeCharacter))) := by
  rw [encodeURIComponent, scalars_utf16, mapM_some, utf16, String.toList_ofList]

/-- `0` is the index of a start. -/
theorem indexOf_eq_zero {needle text : Units} : indexOf needle text = some 0 ↔ needle <+: text := by
  cases text with
  | nil => simp [indexOf]
  | cons unit rest =>
      rw [indexOf, ← List.isPrefixOf_iff_prefix]
      split_ifs with starts
      · exact iff_of_true rfl starts
      · refine iff_of_false (fun same => ?_) starts
        obtain ⟨_, -, same⟩ := Option.map_eq_some_iff.mp same
        exact Nat.succ_ne_zero _ same

/-- A needle has an index when it is inside. -/
theorem isSome_indexOf {needle text : Units} : (indexOf needle text).isSome ↔ needle <:+: text := by
  induction text with
  | nil =>
      rw [indexOf]
      split_ifs with empty
      · simp [empty]
      · simp [empty]
  | cons unit rest ih =>
      rw [indexOf, List.infix_cons_iff, ← List.isPrefixOf_iff_prefix]
      split_ifs with starts
      · exact iff_of_true rfl (.inl starts)
      · rw [Option.isSome_map, ih, or_iff_right starts]

end WaitingRoom.Edge
