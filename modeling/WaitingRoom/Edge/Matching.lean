import WaitingRoom.Edge.Gate
import WaitingRoom.Text.Outline

/-!
# Two evaluators of one rule

The gate decodes a path to one unit per byte and folds case as its runtime does; the console decodes
it to characters and folds ASCII. What they make of a path has one ASCII outline
(`outline_normalizedPath`), and the fields of an accepted rule are ASCII, so the two agree on every
rule and every request (`gate_matches_iff`).
-/

set_option autoImplicit false

namespace WaitingRoom.Edge

open Text

/-! ## Requests -/

/-- A request of a viewer, as text. -/
structure ViewerRequest where
  uri : String
  headers : List (String × String)
  cookies : List (String × String)
  querystring : List (String × String)

/-- Fields as the script sees them. -/
def fieldsOf (entries : List (String × String)) : Fields :=
  entries.map fun entry => (utf16 entry.1, ⟨some (utf16 entry.2)⟩)

/-- The request as the script sees it. -/
def ViewerRequest.toJs (request : ViewerRequest) : Request where
  uri := utf16 request.uri
  headers := fieldsOf request.headers
  cookies := fieldsOf request.cookies
  querystring := fieldsOf request.querystring

/-- The request as the console's rules see it: header names without regard to case. -/
def ViewerRequest.view (request : ViewerRequest) : RequestView where
  path := request.uri
  header name :=
    (request.headers.find? fun header => header.1.toLower = name.toLower).map Prod.snd
  cookie name := (request.cookies.find? fun cookie => cookie.1 = name).map Prod.snd

/-- An ASCII text. -/
def Ascii (text : String) : Prop := ∀ c ∈ text.toList, c.toNat < 0x80

instance (text : String) : Decidable (Ascii text) := List.decidableBAll _ _

/-- The lower case of a Latin-1 unit. -/
def latinLower (unit : UInt16) : UInt16 :=
  if 65 ≤ unit ∧ unit ≤ 90 ∨ 192 ≤ unit ∧ unit ≤ 222 ∧ unit ≠ 215 then unit + 32 else unit

/-- The runtime folds the case of Latin-1 unit by unit. -/
def Runtime.LowersLatin1 (runtime : Runtime) : Prop :=
  ∀ text : Units, (∀ unit ∈ text, unit.toNat < 256) → runtime.toLowerCase text = text.map latinLower

/-! ## Bytes and units -/

/-- The unit of a byte. -/
def widen (b : UInt8) : UInt16 := .ofNat b.toNat

theorem toNat_widen (b : UInt8) : (widen b).toNat = b.toNat :=
  toNat_ofNat_unit (Nat.lt_trans b.toNat_lt (by decide))

theorem widen_injective : Function.Injective widen := by
  intro a b same
  have codes := congrArg UInt16.toNat same
  rw [toNat_widen, toNat_widen] at codes
  exact UInt8.toNat_inj.mp codes

theorem toNat_unit_injective : Function.Injective UInt16.toNat := fun _ _ => UInt16.toNat_inj.mp

theorem toNat_char_injective : Function.Injective Char.toNat := fun _ _ => Char.toNat_inj.mp

/-- The units of an ASCII text are its bytes. -/
theorem utf16_ascii {text : String} (ascii : Ascii text) : utf16 text = (utf8 text).map widen := by
  rw [Ascii] at ascii
  rw [utf16, utf8]
  generalize text.toList = chars at ascii
  induction chars with
  | nil => rfl
  | cons c rest ih =>
      have plain : c.toNat < 0x80 := ascii c List.mem_cons_self
      have byte : String.utf8EncodeChar c = [.ofNat c.toNat] := if_pos (Nat.le_of_lt_succ plain)
      have unit : widen (.ofNat c.toNat) = .ofNat c.toNat := by
        rw [widen, UInt8.toNat_ofNat', Nat.mod_eq_of_lt (by omega)]
      rw [List.flatMap_cons, List.flatMap_cons, encodeUtf16_ascii plain, byte, List.map_append,
        ih fun later member => ascii later (List.mem_cons_of_mem c member), List.map_singleton, unit]

theorem hexVal_widen (b : UInt8) : Gate.hexVal (widen b) = (hexVal b).map widen := by
  have every : ∀ n < 256, Gate.hexVal (widen (.ofNat n)) = (hexVal (.ofNat n)).map widen := by
    decide +kernel
  have found := every b.toNat b.toNat_lt
  rwa [UInt8.ofNat_toNat] at found

theorem hexVal_lt {b value : UInt8} (digit : hexVal b = some value) : value.toNat < 16 := by
  have every : ∀ n < 256, ∀ value ∈ hexVal (.ofNat n), value.toNat < 16 := by
    decide +kernel
  have found := every b.toNat b.toNat_lt value
  rw [UInt8.ofNat_toNat] at found
  exact found digit

theorem widen_digit {hi lo : UInt8} (high : hi.toNat < 16) (low : lo.toNat < 16) :
    widen hi * 16 + widen lo = widen (hi * 16 + lo) := by
  apply UInt16.toNat_inj.mp
  rw [UInt16.toNat_add, UInt16.toNat_mul, toNat_widen, toNat_widen, toNat_widen, UInt8.toNat_add,
    UInt8.toNat_mul]
  simp only [UInt16.reduceToNat, UInt8.reduceToNat]
  omega

/-- **Both decode the same bytes.** -/
theorem percentDecode_widen (bytes : List UInt8) :
    Gate.percentDecode (bytes.map widen) = (percentDecode bytes).map widen := by
  have percent : widen 37 = 37 := rfl
  fun_induction percentDecode bytes with
  | case1 first second rest hi lo low high ih =>
      simp only [List.map_cons, percent, Gate.percentDecode, hexVal_widen, high, low, Option.map_some,
        widen_digit (hexVal_lt high) (hexVal_lt low), ih]
  | case2 first second rest other ih =>
      simp only [List.map_cons] at ih
      simp only [List.map_cons, percent, Gate.percentDecode, hexVal_widen]
      cases high : hexVal first with
      | none => simp only [Option.map_none, ih]
      | some hi =>
          cases low : hexVal second with
          | none => simp only [Option.map_some, Option.map_none, ih]
          | some lo => exact absurd low (other hi lo high)
  | case3 b rest other ih =>
      rw [List.map_cons, List.map_cons, Gate.percentDecode, ih]
      intro first second tail same shape
      obtain ⟨first, others, rfl, -, shape'⟩ := List.map_eq_cons_iff.mp shape
      obtain ⟨second, others, rfl, -, -⟩ := List.map_eq_cons_iff.mp shape'
      exact other first second others (widen_injective same) rfl
  | case4 => rfl

/-! ## Paths -/

/-- The fold that collapses slashes squeezes them. -/
theorem foldl_squeeze (text out : List Char) :
    text.foldl (fun out c => if c = '/' ∧ out.getLast? = some '/' then out else out ++ [c]) out =
      if out.getLast? = some '/' then out.dropLast ++ squeeze '/' ('/' :: text)
      else out ++ squeeze '/' text := by
  induction text generalizing out with
  | nil =>
      rw [List.foldl_nil]
      split_ifs with ends
      · obtain ⟨before, rfl⟩ := List.getLast?_eq_some_iff.mp ends
        simp [squeeze]
      · simp [squeeze]
  | cons c rest ih =>
      rw [List.foldl_cons, ih]
      by_cases slash : c = '/'
      · subst slash
        by_cases ends : out.getLast? = some '/'
        · simp only [ends, and_self, if_true, squeeze_cons_cons]
        · simp [ends]
      · by_cases ends : out.getLast? = some '/'
        · obtain ⟨before, rfl⟩ := List.getLast?_eq_some_iff.mp ends
          simp [slash, squeeze]
        · simp [slash, ends, squeeze_cons_of_ne]

theorem collapseSlashes_eq (p : List Char) : collapseSlashes p = squeeze '/' p := by
  rw [collapseSlashes, foldl_squeeze]
  simp

theorem replaceDotSegments_eq (p : List Char) : replaceDotSegments p = contract '/' '.' p := by
  fun_induction replaceDotSegments p with
  | case1 rest ih => rw [contract_match, ih]
  | case2 c rest other ih =>
      rw [contract_cons_of_not, ih]
      rintro ⟨rfl, tail, rfl⟩
      exact other tail rfl rfl
  | case3 => rfl

theorem stripTrailingDot_eq (p : List Char) :
    stripTrailingDot p = replaceSuffix ['/', '.'] ['/'] p := rfl

/-- What the console makes of a path, in the same steps as the gate. -/
theorem normalizedPath_eq (path : String) : normalizedPath path =
    (replaceSuffix ['/', '.'] ['/'] (untilStable (tidy '/' '.')
      (fromUtf8Lossy (percentDecode (utf8 path))).length
      (fromUtf8Lossy (percentDecode (utf8 path))))).map Char.toLower := by
  have step : (fun p => replaceDotSegments (collapseSlashes p)) = tidy '/' '.' := by
    funext p
    rw [replaceDotSegments_eq, collapseSlashes_eq, tidy]
  simp only [normalizedPath, step, stripTrailingDot_eq]

/-- The lower case of an ASCII code. -/
def lowerCode (n : ℕ) : ℕ := if 65 ≤ n ∧ n ≤ 90 then n + 32 else n

/-- The gate's folding folds the outline. -/
theorem plainCode_latinLower (unit : UInt16) :
    plainCode UInt16.toNat (latinLower unit) = (plainCode UInt16.toNat unit).map lowerCode := by
  have shifted : unit.toNat ≤ 222 → (unit + 32).toNat = unit.toNat + 32 := by
    intro small
    rw [UInt16.toNat_add]
    exact Nat.mod_eq_of_lt (by simp only [UInt16.reduceToNat]; omega)
  simp only [latinLower, UInt16.le_iff_toNat_le, UInt16.reduceToNat]
  split_ifs with upper
  · rw [plainCode, plainCode, shifted (by omega)]
    rcases upper with ascii | latin
    · rw [if_pos (by omega), if_pos (by omega), Option.map_some, lowerCode, if_pos ascii]
    · rw [if_neg (by omega), if_neg (by omega), Option.map_none]
  · rw [plainCode]
    split_ifs
    · rw [Option.map_some, lowerCode, if_neg fun inside => upper (.inl inside)]
    · rfl

theorem toNat_toLower (c : Char) : c.toLower.toNat = lowerCode c.toNat := by
  delta Char.toLower
  rw [lowerCode]
  split_ifs with upper inside inside
  · change (c.val + ('a'.val - 'A'.val)).toNat = c.val.toNat + 32
    rw [UInt32.toNat_add]
    change (c.val.toNat + 32) % 2 ^ 32 = c.val.toNat + 32
    exact Nat.mod_eq_of_lt (by have := inside.2; change c.val.toNat ≤ 90 at this; omega)
  · exact absurd ⟨upper.1, upper.2⟩ inside
  · exact absurd ⟨inside.1, inside.2⟩ upper
  · rfl

/-- The console's folding folds the outline. -/
theorem plainCode_toLower (c : Char) :
    plainCode Char.toNat c.toLower = (plainCode Char.toNat c).map lowerCode := by
  have ascii : lowerCode c.toNat < 0x80 ↔ c.toNat < 0x80 := by
    rw [lowerCode]
    split_ifs <;> omega
  rw [plainCode, plainCode, toNat_toLower]
  by_cases plain : c.toNat < 0x80
  · rw [if_pos (ascii.mpr plain), if_pos plain, Option.map_some]
  · rw [if_neg (mt ascii.mp plain), if_neg plain, Option.map_none]

theorem outline_widen (bytes : List UInt8) :
    outline UInt16.toNat (bytes.map widen) = outline UInt8.toNat bytes := by
  rw [outline, outline, List.map_map]
  refine congrArg (squeeze none) (List.map_congr_left fun b _ => ?_)
  rw [Function.comp_apply, plainCode, plainCode, toNat_widen]

/-- **Both decodings of a path have one outline.** -/
theorem outline_decoded {uri : String} (ascii : Ascii uri) :
    outline UInt16.toNat (Gate.percentDecode (utf16 uri)) =
      outline Char.toNat (fromUtf8Lossy (percentDecode (utf8 uri))) := by
  rw [utf16_ascii ascii, percentDecode_widen, outline_widen, outline_fromUtf8Lossy]

/-- The gate decodes to Latin-1. -/
theorem latin_decoded {uri : String} (ascii : Ascii uri) :
    ∀ unit ∈ Gate.percentDecode (utf16 uri), unit.toNat < 256 := by
  intro unit member
  rw [utf16_ascii ascii, percentDecode_widen] at member
  obtain ⟨b, -, rfl⟩ := List.mem_map.mp member
  rw [toNat_widen]
  exact b.toNat_lt

/-- Before its case is folded, the gate's path is Latin-1. -/
theorem latin_stable {uri : String} (ascii : Ascii uri) (rounds : ℕ) :
    ∀ unit ∈ replaceSuffix [47, 46] [47]
      (untilStable (tidy 47 46) rounds (Gate.percentDecode (utf16 uri))), unit.toNat < 256 := by
  intro unit member
  have kept : ∀ unit ∈ untilStable (tidy 47 46) rounds (Gate.percentDecode (utf16 uri)),
      unit.toNat < 256 := by
    intro unit member
    rw [untilStable_eq_iterate] at member
    exact latin_decoded ascii unit ((iterate_sublist (fun text =>
      (contract_sublist 47 46 _).trans (squeeze_sublist 47 text)) _ _).subset member)
  rw [replaceSuffix] at member
  split_ifs at member
  · rcases List.mem_append.mp member with before | slash
    · exact kept unit (List.mem_of_mem_take before)
    · obtain rfl := List.mem_singleton.mp slash
      decide
  · exact kept unit member

/-- **What the two make of a path has one outline.** -/
theorem outline_normalizedPath {gate : Gate} (lowers : gate.runtime.LowersLatin1) {uri : String}
    (ascii : Ascii uri) :
    outline UInt16.toNat (gate.normalizedPath (utf16 uri)) =
      outline Char.toNat (normalizedPath uri) := by
  have settled : outline UInt16.toNat (untilStable (tidy 47 46)
        (Gate.percentDecode (utf16 uri)).length (Gate.percentDecode (utf16 uri))) =
      outline Char.toNat (untilStable (tidy '/' '.')
        (fromUtf8Lossy (percentDecode (utf8 uri))).length
        (fromUtf8Lossy (percentDecode (utf8 uri)))) :=
    outline_settle toNat_unit_injective toNat_char_injective rfl rfl (by decide) (by decide)
      (outline_decoded ascii)
  have gatePath : gate.normalizedPath (utf16 uri) = (replaceSuffix [47, 46] [47]
      (untilStable (tidy 47 46) (Gate.percentDecode (utf16 uri)).length
        (Gate.percentDecode (utf16 uri)))).map latinLower := lowers _ (latin_stable ascii _)
  rw [gatePath, normalizedPath_eq, outline_map plainCode_latinLower, outline_map plainCode_toLower,
    outline_replaceSuffix toNat_unit_injective (forall_mem_of_all (by decide)) (forall_mem_of_all (by decide)),
    outline_replaceSuffix toNat_char_injective (forall_mem_of_all (by decide)) (forall_mem_of_all (by decide)),
    settled]
  rfl

/-! ## Fields -/

/-- A text whose bytes are ASCII is. -/
theorem ascii_of_bytes {text : String} (bytes : ∀ b ∈ utf8 text, b.toNat < 0x80) : Ascii text := by
  intro c member
  by_contra foreign
  have beyond : ¬ c.val.toNat ≤ 0x7f := fun plain => foreign (Nat.lt_succ_of_le plain)
  -- the last byte of the character's encoding is a tail
  have last : .ofNat (c.val.toNat % 0x40 + 0x80) ∈ String.utf8EncodeChar c := by
    rw [String.utf8EncodeChar, if_neg beyond]
    split_ifs <;> simp
  have tail := bytes _ (List.mem_flatMap.mpr ⟨c, member, last⟩)
  rw [UInt8.toNat_ofNat'] at tail
  omega

theorem ascii_of_checkField {ruleIndex limit : ℕ} {field value : String}
    (checked : checkField ruleIndex field value limit = .ok ()) : Ascii value := by
  rw [checkField] at checked
  split_ifs at checked with printable
  refine ascii_of_bytes fun b member => ?_
  rw [List.all_eq_true] at printable
  have range := printable b member
  rw [decide_eq_true_eq] at range
  have upper := UInt8.le_iff_toNat_le.mp range.2
  change b.toNat ≤ 126 at upper
  omega

/-- The texts of a rule. -/
def ProtectionRule.texts : ProtectionRule → List String
  | .pathPrefix path => [path]
  | .header name value => [name, value]
  | .cookie name => [name]
  | .userAgent needle => [needle]

/-- The fields of a rule that was checked are ASCII. -/
theorem ascii_of_checkRule {ruleIndex : ℕ} {rule : ProtectionRule}
    (checked : checkRule ruleIndex rule = .ok ()) : ∀ text ∈ rule.texts, Ascii text := by
  intro text member
  cases rule with
  | pathPrefix path =>
      obtain rfl := List.mem_singleton.mp member
      exact ascii_of_checkField checked
  | cookie name =>
      obtain rfl := List.mem_singleton.mp member
      exact ascii_of_checkField checked
  | userAgent needle =>
      obtain rfl := List.mem_singleton.mp member
      exact ascii_of_checkField checked
  | header name value =>
      simp only [checkRule, bind, Except.bind] at checked
      split at checked
      · cases checked
      · next first =>
          rcases List.mem_cons.mp member with rfl | second
          · exact ascii_of_checkField first
          · obtain rfl := List.mem_singleton.mp second
            exact ascii_of_checkField checked

theorem ascii_of_checkRulesFrom {index : ℕ} {rules : List ProtectionRule}
    (checked : checkRulesFrom index rules = .ok ()) :
    ∀ rule ∈ rules, ∀ text ∈ rule.texts, Ascii text := by
  induction rules generalizing index with
  | nil => exact fun rule none => absurd none List.not_mem_nil
  | cons first rules ih =>
      simp only [checkRulesFrom, bind, Except.bind] at checked
      split at checked
      · cases checked
      · next head =>
          intro rule member
          rcases List.mem_cons.mp member with rfl | later
          · exact ascii_of_checkRule head
          · exact ih checked rule later

/-- The units of an ASCII text, one a character. -/
theorem utf16_eq_map {text : String} (ascii : Ascii text) :
    utf16 text = text.toList.map fun c => .ofNat c.toNat :=
  flatMap_encodeUtf16_ascii ascii

theorem toLower_eq_map (text : String) : text.toLower = text.map Char.toLower := rfl

theorem ascii_toLower {text : String} (ascii : Ascii text) : Ascii text.toLower := by
  intro c member
  rw [toLower_eq_map, String.toList_map] at member
  obtain ⟨upper, found, rfl⟩ := List.mem_map.mp member
  have folded := plainCode_toLower upper
  rw [plainCode_of_lt (ascii upper found), Option.map_some, plainCode] at folded
  split_ifs at folded with plain
  exact plain

/-- The runtime folds an ASCII text as the console does. -/
theorem toLowerCase_utf16 {runtime : Runtime} (lowers : runtime.LowersLatin1) {text : String}
    (ascii : Ascii text) : runtime.toLowerCase (utf16 text) = utf16 text.toLower := by
  have letters : ∀ n < 128, latinLower (.ofNat n) = .ofNat (Char.ofNat n).toLower.toNat := by
    decide +kernel
  rw [lowers, utf16_eq_map (ascii_toLower ascii), utf16_eq_map ascii, toLower_eq_map,
    String.toList_map, List.map_map, List.map_map]
  · refine List.map_congr_left fun c member => ?_
    have letter := letters c.toNat (ascii c member)
    rwa [Char.ofNat_toNat] at letter
  · intro unit member
    rw [utf16_eq_map ascii] at member
    obtain ⟨c, found, rfl⟩ := List.mem_map.mp member
    rw [UInt16.toNat_ofNat']
    have plain := ascii c found
    omega

theorem chars_of_utf16 {text : String} (ascii : Ascii text) :
    (utf16 text).map (fun unit => Char.ofNat unit.toNat) = text.toList := by
  have letters : text.toList.map ((fun unit : UInt16 => Char.ofNat unit.toNat) ∘
      fun c => UInt16.ofNat c.toNat) = text.toList.map id := by
    refine List.map_congr_left fun c member => ?_
    have plain := ascii c member
    rw [Function.comp_apply, toNat_ofNat_unit (by omega), Char.ofNat_toNat, id]
  rw [utf16_eq_map ascii, List.map_map, letters, List.map_id]

/-- One ASCII text is inside another exactly when its units are. -/
theorem infix_utf16 {needle text : String} (ascii : Ascii needle) (ascii' : Ascii text) :
    utf16 needle <:+: utf16 text ↔ needle.toList <:+: text.toList := by
  constructor
  · intro inside
    have mapped := inside.map fun unit => Char.ofNat unit.toNat
    rwa [chars_of_utf16 ascii, chars_of_utf16 ascii'] at mapped
  · intro inside
    rw [utf16_eq_map ascii, utf16_eq_map ascii']
    exact inside.map _

/-- The codes of an ASCII text are those of its units. -/
theorem codes_utf16 {text : String} (ascii : Ascii text) :
    (utf16 text).map UInt16.toNat = text.toList.map Char.toNat := by
  rw [utf16_eq_map ascii, List.map_map]
  refine List.map_congr_left fun c member => ?_
  have plain := ascii c member
  exact toNat_ofNat_unit (by omega)

/-- Own properties are found by name. -/
theorem ownProperty_fieldsOf (entries : List (String × String)) (key : String) :
    (ownProperty (fieldsOf entries) (utf16 key)).bind Field.value =
      ((entries.find? fun entry => entry.1 = key).map Prod.snd).map utf16 := by
  induction entries with
  | nil => rfl
  | cons entry entries ih =>
      have same : utf16 entry.1 = utf16 key ↔ entry.1 = key := utf16_injective.eq_iff
      simp only [ownProperty, fieldsOf, List.map_cons, List.find?_cons, same] at ih ⊢
      by_cases found : entry.1 = key
      · simp only [found, decide_true]
        rfl
      · simp only [found, decide_false]
        exact ih

theorem isSome_ownProperty (entries : List (String × String)) (key : String) :
    (ownProperty (fieldsOf entries) (utf16 key)).isSome =
      ((entries.find? fun entry => entry.1 = key).map Prod.snd).isSome := by
  induction entries with
  | nil => rfl
  | cons entry entries ih =>
      have same : utf16 entry.1 = utf16 key ↔ entry.1 = key := utf16_injective.eq_iff
      simp only [ownProperty, fieldsOf, List.map_cons, List.find?_cons, same] at ih ⊢
      by_cases found : entry.1 = key
      · simp only [found, decide_true]
        rfl
      · simp only [found, decide_false]
        exact ih

/-! ## Rules -/

/-- What the gate is sent, as far as the evaluators agree on it. -/
structure ViewerRequest.Plain (request : ViewerRequest) : Prop where
  uri : Ascii request.uri
  values : ∀ header ∈ request.headers, Ascii header.2
  lowered : ∀ header ∈ request.headers, header.1.toLower = header.1

/-- Two tests that agree on a list find the same in it. -/
theorem find?_congr {α : Type} {p q : α → Bool} {items : List α} (agree : ∀ a ∈ items, p a = q a) :
    items.find? p = items.find? q := by
  induction items with
  | nil => rfl
  | cons a items ih =>
      rw [List.find?_cons, List.find?_cons, agree a List.mem_cons_self,
        ih fun b member => agree b (List.mem_cons_of_mem a member)]

/-- Names are delivered in lower case, so a name is looked up as it is. -/
theorem ViewerRequest.Plain.header {request : ViewerRequest} (plain : request.Plain) (name : String) :
    request.view.header name =
      (request.headers.find? fun header => header.1 = name.toLower).map Prod.snd := by
  have same : (request.headers.find? fun header => header.1.toLower = name.toLower) =
      request.headers.find? fun header => header.1 = name.toLower := by
    refine find?_congr fun header member => ?_
    rw [plain.lowered header member]
  exact congrArg (Option.map Prod.snd) same

/-- The value of a header is ASCII. -/
theorem ViewerRequest.Plain.ascii_header {request : ViewerRequest} (plain : request.Plain)
    {name value : String} (found : request.view.header name = some value) : Ascii value := by
  obtain ⟨header, at_, rfl⟩ := Option.map_eq_some_iff.mp found
  exact plain.values header (List.mem_of_find?_eq_some at_)

/-- The tags of the wire form are apart. -/
theorem tags_ne : utf16 "h" ≠ utf16 "p" ∧ utf16 "c" ≠ utf16 "p" ∧ utf16 "c" ≠ utf16 "h" ∧
    utf16 "u" ≠ utf16 "p" ∧ utf16 "u" ≠ utf16 "h" ∧ utf16 "u" ≠ utf16 "c" := by
  decide +kernel

theorem matches_path (gate : Gate) (path : String) (request : Request) :
    gate.matches (ProtectionRule.pathPrefix path).wire request =
      .ok (decide (indexOf (gate.runtime.toLowerCase (utf16 path))
        (gate.normalizedPath request.uri) = some 0)) := rfl

theorem matches_header (gate : Gate) (name value : String) (request : Request) :
    gate.matches (ProtectionRule.header name value).wire request =
      .ok (((ownProperty request.headers (gate.runtime.toLowerCase (utf16 name))).bind Field.value).any
        fun actual => decide (gate.runtime.toLowerCase actual =
          gate.runtime.toLowerCase (utf16 value))) := by
  change gate.matches [utf16 "h", utf16 name, utf16 value] request = _
  have first : Gate.item [utf16 "h", utf16 name, utf16 value] 1 = .ok (utf16 name) := rfl
  have second : Gate.item [utf16 "h", utf16 name, utf16 value] 2 = .ok (utf16 value) := rfl
  unfold Gate.matches
  simp only [List.getElem?_cons_zero, Option.some.injEq, tags_ne, if_false, if_true, first, second,
    bind, Except.bind]
  cases (ownProperty request.headers (gate.runtime.toLowerCase (utf16 name))).bind Field.value <;> rfl

theorem matches_cookie (gate : Gate) (name : String) (request : Request) :
    gate.matches (ProtectionRule.cookie name).wire request =
      .ok (ownProperty request.cookies (utf16 name)).isSome := by
  change gate.matches [utf16 "c", utf16 name] request = _
  unfold Gate.matches
  simp only [List.getElem?_cons_zero, Option.some.injEq, tags_ne, if_false, if_true]
  rfl

theorem matches_userAgent (gate : Gate) (needle : String) (request : Request) :
    gate.matches (ProtectionRule.userAgent needle).wire request =
      .ok (((ownProperty request.headers (utf16 "user-agent")).bind Field.value).any fun actual =>
        (indexOf (utf16 needle) actual).isSome) := by
  change gate.matches [utf16 "u", utf16 needle] request = _
  unfold Gate.matches
  simp only [List.getElem?_cons_zero, Option.some.injEq, tags_ne, if_false, if_true]
  cases (ownProperty request.headers (utf16 "user-agent")).bind Field.value <;> rfl

/-- **The two evaluators agree on every rule whose texts are ASCII.** -/
theorem matches_eq {gate : Gate} (lowers : gate.runtime.LowersLatin1) {rule : ProtectionRule}
    (ascii : ∀ text ∈ rule.texts, Ascii text) {request : ViewerRequest} (plain : request.Plain) :
    gate.matches rule.wire request.toJs = .ok (rule.Matches request.view) := by
  cases rule with
  | pathPrefix path =>
      have field : Ascii path := ascii path List.mem_cons_self
      have units : ∀ unit ∈ utf16 path.toLower, unit.toNat < 0x80 := by
        intro unit member
        have code := List.mem_map_of_mem (f := UInt16.toNat) member
        rw [codes_utf16 (ascii_toLower field)] at code
        obtain ⟨c, found, same⟩ := List.mem_map.mp code
        rw [← same]
        exact ascii_toLower field c found
      rw [matches_path, toLowerCase_utf16 lowers field]
      refine congrArg Except.ok (Bool.eq_iff_iff.mpr ?_)
      change _ ↔ path.toLower.toList.isPrefixOf (normalizedPath request.uri) = true
      rw [decide_eq_true_iff, indexOf_eq_zero, List.isPrefixOf_iff_prefix,
        ← prefix_outline toNat_unit_injective units, codes_utf16 (ascii_toLower field)]
      change _ <+: outline _ (gate.normalizedPath (utf16 request.uri)) ↔ _
      rw [outline_normalizedPath lowers plain.uri,
        prefix_outline toNat_char_injective (ascii_toLower field)]
  | header name value =>
      have first : Ascii name := ascii name List.mem_cons_self
      have second : Ascii value := ascii value (List.mem_cons_of_mem _ List.mem_cons_self)
      have looked : (ownProperty request.toJs.headers (utf16 name.toLower)).bind Field.value =
          (request.view.header name).map utf16 := by
        rw [plain.header name]
        exact ownProperty_fieldsOf request.headers name.toLower
      rw [matches_header, toLowerCase_utf16 lowers first, toLowerCase_utf16 lowers second, looked]
      change _ = Except.ok ((request.view.header name).any fun actual =>
        decide (actual.toLower = value.toLower))
      cases found : request.view.header name with
      | none => rfl
      | some actual =>
          rw [Option.map_some, Option.any_some, Option.any_some,
            toLowerCase_utf16 lowers (plain.ascii_header found)]
          exact congrArg Except.ok (decide_eq_decide.mpr utf16_injective.eq_iff)
  | cookie name =>
      rw [matches_cookie]
      exact congrArg Except.ok (isSome_ownProperty request.cookies name)
  | userAgent needle =>
      have field : Ascii needle := ascii needle List.mem_cons_self
      have lower : "user-agent".toLower = "user-agent" := by decide +kernel
      have looked : (ownProperty request.toJs.headers (utf16 "user-agent")).bind Field.value =
          (request.view.header "user-agent").map utf16 := by
        rw [plain.header "user-agent", lower]
        exact ownProperty_fieldsOf request.headers "user-agent"
      rw [matches_userAgent, looked]
      change _ = Except.ok ((request.view.header "user-agent").any fun ua =>
        decide (needle.toList <:+: ua.toList))
      cases found : request.view.header "user-agent" with
      | none => rfl
      | some ua =>
          rw [Option.map_some, Option.any_some, Option.any_some]
          refine congrArg Except.ok (Bool.eq_iff_iff.mpr ?_)
          rw [decide_eq_true_iff, isSome_indexOf, infix_utf16 field (plain.ascii_header found)]

/-- **The gate's rule evaluator agrees with the console's**: on every accepted rule, and so on
whether a request is covered at all. -/
theorem gate_matches_iff (gate : Gate) (lowers : gate.runtime.LowersLatin1)
    (rules : List ProtectionRule) (accepted : validateRuleFields rules = .ok ())
    (request : ViewerRequest) (plain : request.Plain) :
    (∀ rule ∈ rules, gate.matches rule.wire request.toJs = .ok (rule.Matches request.view)) ∧
      gate.protectedByRule request.toJs (rules.map ProtectionRule.wire) =
        .ok (matchesAny rules request.view) := by
  have ascii := ascii_of_checkRulesFrom accepted
  clear accepted
  have agree : ∀ rule ∈ rules,
      gate.matches rule.wire request.toJs = .ok (rule.Matches request.view) :=
    fun rule member => matches_eq lowers (ascii rule member) plain
  refine ⟨agree, ?_⟩
  clear ascii
  induction rules with
  | nil => rfl
  | cons rule rules ih =>
      have rest := ih fun later member => agree later (List.mem_cons_of_mem rule member)
      rw [List.map_cons, Gate.protectedByRule, agree rule List.mem_cons_self, matchesAny,
        List.any_cons]
      cases rule.Matches request.view with
      | true => rfl
      | false => exact rest

namespace Sample

/-- A gate whose runtime folds Latin-1. -/
def latinGate : Gate where
  eventId := "demo"
  sessionCookie := "vwr_session"
  waitingPath := "/waiting"
  runtime :=
    { toLowerCase := List.map latinLower
      jsonParse := fun _ => none
      fromBase64url := fun _ => []
      hmac := fun _ _ => [] }

/-- A rule of each kind. -/
def rules : List ProtectionRule :=
  [.pathPrefix "/Shop/Checkout", .header "X-Plan" "Gold", .cookie "beta", .userAgent "bot"]

/-- A request that hides its path, with a byte that is no UTF-8. -/
def hidden : ViewerRequest where
  uri := "//%73hop/././/check%6Fut/%ff%2"
  headers := [("x-plan", "silver"), ("user-agent", "curl")]
  cookies := []
  querystring := []

end Sample

/-- A hidden path is covered at the edge, as it is in the console. -/
theorem gate_matches_iff_sample :
    Sample.latinGate.protectedByRule Sample.hidden.toJs (Sample.rules.map ProtectionRule.wire) =
      .ok true := by
  have agree := (gate_matches_iff Sample.latinGate (fun _ _ => rfl) Sample.rules (by decide +kernel)
    Sample.hidden ⟨by decide +kernel, by decide +kernel, by decide +kernel⟩).2
  have covered : matchesAny Sample.rules Sample.hidden.view = true := by decide +kernel
  rw [agree, covered]

end WaitingRoom.Edge
