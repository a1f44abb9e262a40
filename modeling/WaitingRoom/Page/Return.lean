import WaitingRoom.Edge.Admission
import WaitingRoom.Lambda.NoJs
import WaitingRoom.Page.Destination
import Mathlib.Data.List.TakeWhile

/-!
# Back to the request that was refused

The gate sends a refused visitor to the waiting page with the request as its `next`, and the page, with
or without its script, sends the visitor on to what it reads there (`next_of_refusal`).
-/

set_option autoImplicit false

namespace WaitingRoom.Page

open Text Edge

/-! ## Components -/

/-- A byte that `encodeURIComponent` keeps. -/
def scriptKeeps (b : UInt8) : Bool := b.toNat < 0x80 && isUnreserved (Char.ofNat b.toNat)

theorem scriptKeeps_ascii {b : UInt8} (kept : scriptKeeps b) : b.toNat < 0x80 := by
  rw [scriptKeeps, Bool.and_eq_true] at kept
  exact of_decide_eq_true kept.1

theorem percentEncode_units :
    ∀ b, (percentEncode b).flatMap encodeUtf16 = (escapeByte b).map widen :=
  forall_byte (by decide +kernel)

theorem isUnreserved_ascii {c : Char} (plain : isUnreserved c) : c.toNat < 0x80 := by
  have bounded : ∀ {last : Char}, last.toNat < 0x80 → c ≤ last → c.toNat < 0x80 := by
    intro last ascii least
    exact Nat.lt_of_le_of_lt (UInt32.le_iff_toNat_le.mp least) ascii
  have named : ∀ d ∈ ['-', '_', '.', '!', '~', '*', Char.ofNat 39, '(', ')'], d.toNat < 0x80 :=
    forall_mem_of_all (by decide)
  simp only [isUnreserved, Bool.or_eq_true, Bool.and_eq_true, decide_eq_true_eq,
    List.contains_iff_mem] at plain
  rcases plain with ((upper | lower) | digit) | mark
  · exact bounded (by decide) upper.2
  · exact bounded (by decide) lower.2
  · exact bounded (by decide) digit.2
  · exact named c mark

/-- The bytes of a character that is escaped are none that is kept. -/
theorem scriptKeeps_utf8EncodeChar {c : Char} (escaped : isUnreserved c = false) :
    ∀ b ∈ String.utf8EncodeChar c, scriptKeeps b = false := by
  intro b member
  by_cases plain : c.toNat < 0x80
  · have byte : String.utf8EncodeChar c = [.ofNat c.toNat] := if_pos (Nat.le_of_lt_succ plain)
    rw [byte, List.mem_singleton] at member
    rw [member, scriptKeeps, toNat_byte (by omega), Char.ofNat_toNat, escaped, Bool.and_false]
  · have beyond : 0x80 ≤ b.toNat := utf8EncodeChar_other (Nat.le_of_not_lt plain) b member
    rw [scriptKeeps, decide_eq_false (Nat.not_lt_of_le beyond), Bool.false_and]

/-- A character is encoded byte by byte. -/
theorem encodeCharacter_units (c : Char) :
    (encodeCharacter c).flatMap encodeUtf16 = (escape scriptKeeps (String.utf8EncodeChar c)).map widen := by
  rw [encodeCharacter]
  cases kept : isUnreserved c with
  | true =>
      have plain : c.toNat < 0x80 := isUnreserved_ascii kept
      have byte : String.utf8EncodeChar c = [.ofNat c.toNat] := if_pos (Nat.le_of_lt_succ plain)
      have keeps : scriptKeeps (.ofNat c.toNat) := by
        rw [scriptKeeps, toNat_byte (by omega), Char.ofNat_toNat, kept, Bool.and_true]
        exact decide_eq_true plain
      rw [if_pos rfl, byte, escape_eq_self (List.forall_mem_singleton.mpr keeps), List.flatMap_singleton,
        encodeUtf16_ascii plain, List.map_singleton, widen, toNat_byte (by omega)]
  | false =>
      have escapes : escape scriptKeeps (String.utf8EncodeChar c) =
          (String.utf8EncodeChar c).flatMap escapeByte := by
        refine List.flatMap_congr fun b member => ?_
        rw [scriptKeeps_utf8EncodeChar kept b member]
        rfl
      simp only [Bool.false_eq_true, if_false]
      rw [escapes, List.flatMap_assoc, List.map_flatMap]
      exact List.flatMap_congr fun b _ => percentEncode_units b

/-- **The encoder escapes the bytes of a text.** -/
theorem encodeURIComponent_escape (text : String) :
    encodeURIComponent (utf16 text) = .ok ((escape scriptKeeps (utf8 text)).map widen) := by
  rw [encodeURIComponent_utf16, utf16, String.toList_ofList, utf8]
  congr 1
  induction text.toList with
  | nil => rfl
  | cons c chars ih =>
      rw [List.flatMap_cons, List.flatMap_append, encodeCharacter_units, ih, List.flatMap_cons, escape_append,
        List.map_append]

theorem eq_map_some_of_mapM {α : Type} {items : List (Option α)} {values : List α}
    (all : items.mapM id = some values) : items = values.map some := by
  induction items generalizing values with
  | nil =>
      obtain rfl := Option.some.inj all
      rfl
  | cons item items ih =>
      rw [List.mapM_cons] at all
      obtain ⟨value, there, rest⟩ := Option.bind_eq_some_iff.mp all
      obtain ⟨others, later, same⟩ := Option.bind_eq_some_iff.mp rest
      obtain rfl := Option.some.inj same
      rw [List.map_cons, ← ih later]
      exact congrArg (· :: items) there

/-- Only texts are encoded. -/
theorem encodes_of_encoded {units encoded : Units} (done : encodeURIComponent units = .ok encoded) :
    Encodes units := by
  rw [encodeURIComponent] at done
  split at done
  · next chars read =>
      refine ⟨String.ofList chars, ?_⟩
      rw [utf16, String.toList_ofList, flatMap_encodeUtf16_of_scalars (eq_map_some_of_mapM read)]
  · cases done

/-! ## The address of a refusal -/

/-- Why the gate refuses. -/
def reasons : List String := ["none", "signature", "event", "expired", "ip"]

section Refusal

variable {gate : Gate} {kvs : Kvs} {now : ℕ} {ip : Units} {request : Request} {response : Response}

theorem checkSession_respond {bound : Bool}
    (refused : gate.checkSession kvs bound now ip request = .ok (.respond response)) :
    ∃ reason ∈ reasons, gate.refuse request reason = .ok (.respond response) := by
  rw [Gate.checkSession] at refused
  split at refused
  · exact ⟨"none", by simp [reasons], refused⟩
  · simp only [bind, Except.bind] at refused
    split at refused
    · cases refused
    · split at refused
      · cases refused
      · split at refused
        · exact ⟨"signature", by simp [reasons], refused⟩
        · split_ifs at refused
          · exact ⟨"event", by simp [reasons], refused⟩
          · exact ⟨"expired", by simp [reasons], refused⟩
          · exact ⟨"ip", by simp [reasons], refused⟩
          · cases refused

theorem attempt_respond (refused : gate.attempt kvs now ip request = .ok (.respond response)) :
    ∃ reason ∈ reasons, gate.refuse request reason = .ok (.respond response) := by
  rw [Gate.attempt] at refused
  cases config : kvs.config with
  | error error => simp [config, bind, Except.bind] at refused
  | ok cfg =>
      simp only [config, bind, Except.bind] at refused
      by_cases version : cfg.v = .finite 1
      · simp only [version, ne_eq, not_true, if_false] at refused
        cases evaluated : gate.protectedByRule request cfg.r with
        | error error => simp [evaluated] at refused
        | ok covered =>
            simp only [evaluated] at refused
            cases covered with
            | false => cases refused
            | true =>
                rw [if_neg (by decide)] at refused
                split_ifs at refused
                · cases refused
                · cases refused
                · exact checkSession_respond refused
      · simp only [version, ne_eq, not_false_eq_true, if_true] at refused
        cases refused

/-- What the gate answers itself is a refusal, for one of its reasons. -/
theorem handler_respond {event : Event} (refused : gate.handler kvs now event = .respond response) :
    ∃ reason ∈ reasons,
      gate.refuse (Gate.stripSpoofableHeaders event.request) reason = .ok (.respond response) := by
  unfold Gate.handler at refused
  simp only at refused
  cases decided : gate.attempt kvs now event.ip (Gate.stripSpoofableHeaders event.request) with
  | error error =>
      rw [decided] at refused
      cases refused
  | ok outcome =>
      rw [decided] at refused
      obtain rfl : outcome = .respond response := refused
      exact attempt_respond decided

/-- The address a navigation is sent to. -/
theorem refuse_location {reason : String} {location : Units}
    (refused : gate.refuse request reason = .ok (.respond response))
    (redirected : ownProperty response.headers (utf16 "location") = some ⟨some location⟩) :
    ∃ query next, Gate.queryString request.querystring = .ok query ∧
      encodeURIComponent (request.uri ++ query) = .ok next ∧
      location = utf16 (gate.waitingPath ++ "?r=" ++ reason) ++ (utf16 "&next=" ++ next) := by
  unfold Gate.refuse at refused
  simp only [bind, Except.bind] at refused
  split at refused
  · cases refused
  · split_ifs at refused
    · split at refused
      · cases refused
      · next query built =>
          split at refused
          · cases refused
          · next next encoded =>
              obtain rfl := Outcome.respond.inj (Except.ok.inj refused)
              refine ⟨query, next, built, encoded, ?_⟩
              simpa [ownProperty, Gate.respondWith] using redirected.symm
    · obtain rfl := Outcome.respond.inj (Except.ok.inj refused)
      simp [ownProperty, Gate.respondWith, utf16_injective.eq_iff] at redirected

end Refusal

/-! ## The address a browser keeps -/

/-- What is left of a component in an address. -/
def kept (b : UInt8) : Bool := scriptKeeps b && inQuery b

theorem kept_ascii : ∀ b, kept b → b.toNat < 0x80 := forall_byte (by decide +kernel)

/-- A component as it stands in an address. -/
def component (destination : String) : String := NoJs.asciiText (escape kept (utf8 destination))

theorem escape_ascii {keeps : UInt8 → Bool} (ascii : ∀ b, keeps b → b.toNat < 0x80) (bytes : List UInt8) :
    ∀ b ∈ escape keeps bytes, b.toNat < 0x80 := by
  intro b member
  rcases mem_escape member with holds | escaped
  · exact ascii b holds
  · exact isEscape_ascii escaped

/-- The units of a text of ASCII bytes. -/
theorem utf16_asciiText {bytes : List UInt8} (ascii : ∀ b ∈ bytes, b.toNat < 0x80) :
    utf16 (NoJs.asciiText bytes) = bytes.map widen := by
  have same : utf8 (NoJs.asciiText bytes) = bytes := NoJs.utf8_asciiText ascii
  rw [utf16_ascii (ascii_of_bytes (same.symm ▸ ascii)), same]

theorem bytesOf_utf16 (text : String) : bytesOf (utf16 text) = utf8 text := by
  rw [bytesOf, scalars_utf16, List.flatMap_map, utf8]
  rfl

/-- Only an ASCII character has its unit. -/
theorem eq_of_mem_encodeUtf16 {mark c : Char} (ascii : mark.toNat < 0x80)
    (unit : .ofNat mark.toNat ∈ encodeUtf16 c) : c = mark := by
  have code : (UInt16.ofNat mark.toNat).toNat = mark.toNat := toNat_ofNat_unit (by omega)
  have small : c.toNat < 0x110000 := (toNat_bounds c).1
  rw [encodeUtf16] at unit
  split_ifs at unit with basic
  · have same := congrArg UInt16.toNat (List.mem_singleton.mp unit)
    rw [code, toNat_ofNat_unit basic] at same
    exact toNat_char_injective same.symm
  · rw [List.mem_cons, List.mem_singleton] at unit
    rcases unit with same | same
    · have codes := congrArg UInt16.toNat same
      rw [code, toNat_ofNat_unit (by omega)] at codes
      omega
    · have codes := congrArg UInt16.toNat same
      rw [code, toNat_ofNat_unit (by omega)] at codes
      omega

/-- A character that a text does not have is none of its units. -/
theorem not_mem_utf16 {mark : Char} (ascii : mark.toNat < 0x80) {text : String} (absent : mark ∉ text.toList) :
    .ofNat mark.toNat ∉ utf16 text := by
  intro member
  obtain ⟨c, found, unit⟩ := List.mem_flatMap.mp member
  exact absent (eq_of_mem_encodeUtf16 ascii unit ▸ found)

/-- What the gate puts before a destination. -/
def searchPrefix (reason : String) : String := "?r=" ++ reason ++ "&next="

/-- What is known of the gate's own bytes. -/
structure PlainPrefix (text : String) : Prop where
  starts : (utf8 text).head? = some 63
  ascii : ∀ b ∈ utf8 text, b.toNat < 0x80
  stays : ∀ b ∈ utf8 text, inQuery b
  inside : 35 ∉ utf8 text
  units : utf16 text = (utf8 text).map widen

theorem plainPrefix {reason : String} (known : reason ∈ reasons) : PlainPrefix (searchPrefix reason) := by
  have every : ∀ reason ∈ reasons, (utf8 (searchPrefix reason)).head? = some 63 ∧
      (∀ b ∈ utf8 (searchPrefix reason), b.toNat < 0x80) ∧ (∀ b ∈ utf8 (searchPrefix reason), inQuery b) ∧
      35 ∉ utf8 (searchPrefix reason) ∧
      utf16 (searchPrefix reason) = (utf8 (searchPrefix reason)).map widen := by
    decide +kernel
  obtain ⟨starts, ascii, stays, inside, units⟩ := every reason known
  exact ⟨starts, ascii, stays, inside, units⟩

theorem bytesOf_widen {bytes : List UInt8} (ascii : ∀ b ∈ bytes, b.toNat < 0x80) :
    bytesOf (bytes.map widen) = bytes := by
  rw [← utf16_asciiText ascii, bytesOf_utf16, NoJs.utf8_asciiText ascii]

/-- The query of an address without a fragment, whose path has none. -/
theorem query_of_address {path : String} {bytes : List UInt8} (plain : '?' ∉ path.toList ∧ '#' ∉ path.toList)
    (starts : bytes.head? = some 63) (whole : 35 ∉ bytes) :
    ((utf16 path ++ bytes.map widen).takeWhile (· ≠ 35)).dropWhile (· ≠ 63) = bytes.map widen := by
  have hash : (35 : UInt16) ∉ utf16 path := not_mem_utf16 (by decide : ('#' : Char).toNat < 0x80) plain.2
  have mark : (63 : UInt16) ∉ utf16 path := not_mem_utf16 (by decide : ('?' : Char).toNat < 0x80) plain.1
  have noHash : ∀ unit ∈ utf16 path ++ bytes.map widen, decide (unit ≠ 35) := by
    intro unit member
    rw [decide_eq_true_eq]
    rintro rfl
    rcases List.mem_append.mp member with inPath | inBytes
    · exact hash inPath
    · obtain ⟨b, found, same⟩ := List.mem_map.mp inBytes
      obtain rfl : b = 35 := widen_injective same
      exact whole found
  have noMark : ∀ unit ∈ utf16 path, decide (unit ≠ 63) := by
    intro unit member
    rw [decide_eq_true_eq]
    rintro rfl
    exact mark member
  obtain ⟨rest, rfl⟩ := List.head?_eq_some_iff.mp starts
  rw [List.takeWhile_eq_self_iff.mpr noHash, List.dropWhile_append_of_pos noMark]
  rfl

/-- **What the waiting page reads of the gate's address**: the reason, and the destination escaped. -/
theorem search_location {path reason destination : String} {location : Units} (known : reason ∈ reasons)
    (plain : '?' ∉ path.toList ∧ '#' ∉ path.toList)
    (shape : location = utf16 (path ++ "?r=" ++ reason) ++
      (utf16 "&next=" ++ (escape scriptKeeps (utf8 destination)).map widen)) :
    search location = utf16 (searchPrefix reason ++ component destination) := by
  have fixed := plainPrefix known
  generalize escaped : escape scriptKeeps (utf8 destination) = bytes at shape
  have ascii : ∀ b ∈ utf8 (searchPrefix reason) ++ bytes, b.toNat < 0x80 := by
    refine List.forall_mem_append.mpr ⟨fixed.ascii, ?_⟩
    rw [← escaped]
    exact escape_ascii (fun _ => scriptKeeps_ascii) _
  have apart : 35 ∉ utf8 (searchPrefix reason) ++ bytes := by
    rw [List.mem_append, not_or, ← escaped]
    exact ⟨fixed.inside, not_mem_escape (by decide) (by decide) _⟩
  have starts : (utf8 (searchPrefix reason) ++ bytes).head? = some 63 := by
    rw [List.head?_append, fixed.starts]
    rfl
  have whole : location = utf16 path ++ (utf8 (searchPrefix reason) ++ bytes).map widen := by
    rw [shape, List.map_append, ← fixed.units, searchPrefix]
    simp only [utf16_append, List.append_assoc]
  have lets : ∀ b, isEscape b → inQuery b := forall_byte (by decide +kernel)
  rw [search, whole, query_of_address plain starts apart, bytesOf_widen ascii, escape_append,
    escape_eq_self fixed.stays, ← escaped, escape_escape lets, List.map_append, ← fixed.units, utf16_append,
    component, utf16_asciiText (escape_ascii kept_ascii _)]
  rfl

/-! ## What both pages read there -/

/-- The first parameter of that name is the gate's. -/
theorem nextMatch_search {reason : String} (known : reason ∈ reasons) (value : Units) :
    nextMatch (utf16 (searchPrefix reason) ++ value) = some (value.takeWhile (· ≠ 38)) := by
  simp only [reasons, List.mem_cons, List.not_mem_nil, or_false] at known
  rcases known with rfl | rfl | rfl | rfl | rfl
  · rfl
  · rfl
  · rfl
  · rfl
  · rfl

/-- **The script goes where the visitor came from.** -/
theorem nextDestination_search {reason destination : String} (known : reason ∈ reasons)
    (rooted : (utf16 destination)[0]? = some 47)
    (second : (utf16 destination)[1]? ≠ some 47 ∧ (utf16 destination)[1]? ≠ some 92) :
    nextDestination (utf16 (searchPrefix reason ++ component destination)) = utf16 destination := by
  have units : utf16 (component destination) = (escape kept (utf8 destination)).map widen :=
    utf16_asciiText (escape_ascii kept_ascii _)
  have apart : ∀ unit ∈ (escape kept (utf8 destination)).map widen, decide (unit ≠ 38) := by
    intro unit member
    rw [decide_eq_true_eq]
    rintro rfl
    obtain ⟨b, found, same⟩ := List.mem_map.mp member
    obtain rfl : b = 38 := widen_injective same
    exact not_mem_escape (by decide) (by decide) _ found
  rw [nextDestination, utf16_append, nextMatch_search known, units, List.takeWhile_eq_self_iff.mpr apart]
  simp only
  rw [decodeURIComponent_escape (by decide) kept_ascii]
  refine if_neg ?_
  rintro (other | slash | backslash)
  · exact other rooted
  · exact second.1 slash
  · exact second.2 backslash

/-- **So does the page without a script**, where the destination has no control characters. -/
theorem safeNext_search {reason destination : String} (known : reason ∈ reasons)
    (onSite : NoJs.OnSite destination) :
    NoJs.safeNext (NoJs.nextParam (textOf ((utf16 (searchPrefix reason ++ component destination)).drop 1))) =
      destination := by
  have query : textOf ((utf16 (searchPrefix reason ++ component destination)).drop 1) =
      "r=" ++ reason ++ "&next=" ++ component destination := by
    have start : searchPrefix reason ++ component destination =
        "?" ++ ("r=" ++ reason ++ "&next=" ++ component destination) := by
      simp only [searchPrefix, String.append_assoc]
      rfl
    rw [start, utf16_append]
    exact textOf_utf16 _
  obtain ⟨first, noName, noMark⟩ : '&' ∉ ("r=" ++ reason).toList ∧ NoJs.stripNext ("r=" ++ reason).toList = none ∧
      ("r=" ++ reason).toList.head? = some 'r' := by
    have every : ∀ reason ∈ reasons, '&' ∉ ("r=" ++ reason).toList ∧
        NoJs.stripNext ("r=" ++ reason).toList = none ∧ ("r=" ++ reason).toList.head? = some 'r' := by
      decide +kernel
    exact every reason known
  have second : '&' ∉ "next=".toList ++ (component destination).toList := by
    rw [List.mem_append, not_or]
    refine ⟨by decide, fun member => ?_⟩
    exact not_mem_escape (by decide) (by decide) _ (NoJs.mem_asciiText member)
  have shape : ("r=" ++ reason ++ "&next=" ++ component destination).toList.dropWhile (· = '?') =
      List.intercalate ['&'] [("r=" ++ reason).toList, "next=".toList ++ (component destination).toList] := by
    have separator : "&next=".toList = ['&'] ++ "next=".toList := rfl
    obtain ⟨rest, starts⟩ := List.head?_eq_some_iff.mp noMark
    rw [String.toList_append, String.toList_append, separator, starts, List.cons_append, List.cons_append,
      List.dropWhile_cons_of_neg (by decide)]
    simp [List.intercalate]
  have param : NoJs.nextParam ("r=" ++ reason ++ "&next=" ++ component destination) =
      some (component destination) := by
    rw [NoJs.nextParam_pairs (List.forall_mem_cons.mpr ⟨first, List.forall_mem_singleton.mpr second⟩) (List.cons_ne_nil _ _) shape,
      List.findSome?_cons, noName]
    simp only
    rw [List.findSome?_singleton, NoJs.stripNext_append, Option.map_some, String.ofList_toList]
  refine NoJs.safeNext_decoded ?_ onSite
  rw [query, param, Option.bind_some]
  exact NoJs.percentDecode_escape rfl rfl kept_ascii destination

end WaitingRoom.Page
