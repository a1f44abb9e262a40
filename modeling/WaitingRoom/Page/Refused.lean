import WaitingRoom.Page.Return
import Mathlib.Algebra.Order.BigOperators.Group.List
import Mathlib.Algebra.GroupWithZero.Nat
import Mathlib.Algebra.Order.Group.Nat

/-!
# The parameters of a refused request

The edge gives a request's parameters as they stand in its query, escapes and all, and one value for
each key beside the list of all. The gate escapes them once more and reads one value, so the visitor is
sent back to the same request exactly when no key is repeated and nothing needs an escape
(`refused_visitor_returns`).
-/

set_option autoImplicit false

namespace WaitingRoom.Page

open Text Edge

/-! ## Lists that only grow -/

section Growth

variable {ι α : Type}

/-- Summands that do not shrink and have the same sum are the same. -/
theorem eq_of_sum_eq {f g : ι → ℕ} {entries : List ι} (least : ∀ entry ∈ entries, f entry ≤ g entry)
    (same : (entries.map g).sum = (entries.map f).sum) : ∀ entry ∈ entries, g entry = f entry := by
  induction entries with
  | nil => exact nofun
  | cons entry entries ih =>
      have first : f entry ≤ g entry := least entry List.mem_cons_self
      have others : ∀ later ∈ entries, f later ≤ g later :=
        fun later member => least later (List.mem_cons_of_mem entry member)
      have rest : (entries.map f).sum ≤ (entries.map g).sum := List.sum_le_sum others
      rw [List.map_cons, List.sum_cons, List.map_cons, List.sum_cons] at same
      exact List.forall_mem_cons.mpr ⟨by omega, ih others (by omega)⟩

/-- **One item for each entry, no smaller than one of the entry's own**: if together they are the
entries' own, each entry has the one, and the item is no larger. -/
theorem single_of_perm (size : α → ℕ) (own : ι → α) {written : ι → α} {all : ι → List α} {entries : List ι}
    (among : ∀ entry ∈ entries, own entry ∈ all entry)
    (grows : ∀ entry ∈ entries, size (own entry) ≤ size (written entry))
    (perm : (entries.map written).Perm (entries.flatMap all)) :
    ∀ entry ∈ entries, all entry = [own entry] ∧ size (written entry) = size (own entry) := by
  have counts : ∀ entry ∈ entries, (all entry).length = 1 := by
    have least : ∀ entry ∈ entries, 1 ≤ (all entry).length :=
      fun entry member => List.length_pos_of_mem (among entry member)
    refine eq_of_sum_eq least ?_
    have lengths := perm.length_eq
    rw [List.length_map, List.length_flatMap] at lengths
    rw [← lengths]
    simp
  have single : ∀ entry ∈ entries, all entry = [own entry] := by
    intro entry member
    obtain ⟨item, shape⟩ := List.length_eq_one_iff.mp (counts entry member)
    have inside := among entry member
    rw [shape, List.mem_singleton] at inside
    rw [shape, inside]
  have owned : entries.flatMap all = entries.map own := by
    rw [List.map_eq_flatMap]
    exact List.flatMap_congr single
  have sizes : ∀ entry ∈ entries, size (written entry) = size (own entry) := by
    refine eq_of_sum_eq grows ?_
    have sums := (perm.map size).sum_eq
    rwa [owned, List.map_map, List.map_map] at sums
  exact fun entry member => ⟨single entry member, sizes entry member⟩

end Growth

/-! ## Parameters -/

/-- A parameter as the edge presents it: a value, and all of them where the key is repeated. -/
structure Parameter where
  value : Units
  multiValue : List Units
  among : multiValue = [] ∨ value ∈ multiValue

/-- Every value of a key. -/
def Parameter.values (parameter : Parameter) : List Units :=
  if parameter.multiValue = [] then [parameter.value] else parameter.multiValue

theorem Parameter.value_mem (parameter : Parameter) : parameter.value ∈ parameter.values := by
  rw [values]
  split_ifs with once
  · exact List.mem_singleton_self _
  · exact parameter.among.resolve_left once

/-- The parameters of a request by key. -/
abbrev Query := List (Units × Parameter)

namespace Query

/-- What the gate's script reads of them. -/
def fields (query : Query) : Fields := query.map fun entry => (entry.1, ⟨some entry.2.value⟩)

/-- A key and a value for each value of each key. -/
def parameters (query : Query) : List (Units × Units) :=
  query.flatMap fun entry => entry.2.values.map (entry.1, ·)

end Query

/-- A key and its value, as they stand between two separators. -/
def splitPair (pair : Units) : Units × Units :=
  (pair.takeWhile (· ≠ 61), (pair.dropWhile (· ≠ 61)).drop 1)

/-- The parameters of what follows a path. -/
def parametersOf : Units → Option (List (Units × Units))
  | [] => some []
  | 63 :: text => some ((text.splitOn 38).map splitPair)
  | _ => none

/-- The same request: its path, and as many times each value for each key, in whatever order. -/
def SameRequest (uri : Units) (query : Query) (destination : Units) : Prop :=
  ∃ text parameters, destination = uri ++ text ∧ parametersOf text = some parameters ∧
    parameters.Perm query.parameters

/-- A text that needs no escape. -/
def Unreserved (text : Units) : Prop :=
  ∀ unit ∈ text, unit.toNat < 0x80 ∧ isUnreserved (Char.ofNat unit.toNat)

instance (text : Units) : Decidable (Unreserved text) := List.decidableBAll _ _

/-- No key is repeated, and nothing needs an escape. -/
def Query.Plain (query : Query) : Prop :=
  ∀ entry ∈ query, entry.2.values = [entry.2.value] ∧ Unreserved entry.1 ∧ Unreserved entry.2.value

instance (query : Query) : Decidable query.Plain := List.decidableBAll _ _

/-! ## What the gate writes -/

/-- A text as the gate escapes it. -/
def escaped (text : Units) : Units := (escape scriptKeeps (bytesOf text)).map widen

theorem encodeURIComponent_escaped {text encoded : Units} (done : encodeURIComponent text = .ok encoded) :
    Encodes text ∧ encoded = escaped text := by
  obtain ⟨source, rfl⟩ := encodes_of_encoded done
  refine ⟨encodes_utf16 source, ?_⟩
  rw [encodeURIComponent_escape] at done
  rw [escaped, bytesOf_utf16]
  exact (Except.ok.inj done).symm

theorem length_encodeUtf16_le (c : Char) : (encodeUtf16 c).length ≤ (String.utf8EncodeChar c).length := by
  rw [String.length_utf8EncodeChar, encodeUtf16]
  split_ifs with basic
  · exact Char.utf8Size_pos c
  · have four : c.utf8Size = 4 :=
      Char.utf8Size_eq_four_iff.mpr (UInt32.lt_iff_toNat_lt.mpr (by change 0xffff < c.toNat; omega))
    rw [four]
    exact (by decide : 2 ≤ 4)

theorem length_utf16_le (text : String) : (utf16 text).length ≤ (utf8 text).length := by
  rw [utf16, utf8, List.length_flatMap, List.length_flatMap]
  exact List.sum_le_sum fun c _ => length_encodeUtf16_le c

/-- A text that needs no escape is written as it is. -/
theorem escaped_of_unreserved {text : Units} (plain : Unreserved text) : escaped text = text := by
  have small : ∀ unit ∈ text, (UInt8.ofNat unit.toNat).toNat = unit.toNat :=
    fun unit member => toNat_byte (Nat.lt_trans (plain unit member).1 (by decide))
  obtain ⟨bytes, rfl⟩ : ∃ bytes : List UInt8, text = bytes.map widen := by
    refine ⟨text.map fun unit => .ofNat unit.toNat, ?_⟩
    rw [List.map_map]
    refine (List.map_id text).symm.trans (List.map_congr_left fun unit member => ?_)
    rw [Function.comp_apply, widen, small unit member, UInt16.ofNat_toNat, id]
  have each : ∀ b ∈ bytes, b.toNat < 0x80 ∧ isUnreserved (Char.ofNat b.toNat) := by
    intro b member
    have found := plain (widen b) (List.mem_map_of_mem member)
    rwa [toNat_widen] at found
  rw [escaped, bytesOf_widen fun b member => (each b member).1, escape_eq_self]
  intro b member
  rw [scriptKeeps, Bool.and_eq_true, decide_eq_true_eq]
  exact each b member

/-- Escaping never makes a text shorter. -/
theorem length_le_escaped {text : Units} (encodes : Encodes text) : text.length ≤ (escaped text).length := by
  obtain ⟨source, rfl⟩ := encodes
  rw [escaped, bytesOf_utf16, List.length_map]
  exact (length_utf16_le source).trans (length_le_escape _)

/-- Only a text that needs no escape keeps its length. -/
theorem unreserved_of_length {text : Units} (encodes : Encodes text)
    (same : (escaped text).length = text.length) : Unreserved text := by
  obtain ⟨source, rfl⟩ := encodes
  rw [escaped, bytesOf_utf16, List.length_map] at same
  have bytes : (escape scriptKeeps (utf8 source)).length = (utf8 source).length :=
    Nat.le_antisymm (same.trans_le (length_utf16_le source)) (length_le_escape _)
  have keeps := length_escape_eq_iff.mp bytes
  have ascii : Ascii source := ascii_of_bytes fun b member => scriptKeeps_ascii (keeps b member)
  intro unit member
  rw [utf16_ascii ascii] at member
  obtain ⟨b, found, rfl⟩ := List.mem_map.mp member
  have plain := keeps b found
  rw [scriptKeeps, Bool.and_eq_true, decide_eq_true_eq] at plain
  rw [toNat_widen]
  exact plain

/-- A character that needs an escape, and starts none, is in no escaped text. -/
theorem not_mem_escaped {b : UInt8} (drops : scriptKeeps b = false) (plain : isEscape b = false)
    (text : Units) : widen b ∉ escaped text := by
  intro member
  obtain ⟨other, found, same⟩ := List.mem_map.mp member
  obtain rfl := widen_injective same
  exact not_mem_escape drops plain _ found

/-- A parameter of the address. -/
def written (entry : Units × Parameter) : Units × Units := (escaped entry.1, escaped entry.2.value)

/-- Both sides of a parameter. -/
def pairText (pair : Units × Units) : Units := pair.1 ++ utf16 "=" ++ pair.2

theorem parts_of_query {query : Query} {parts : List Units}
    (built : ((query.map fun entry => (entry.1, entry.2.value)).mapM fun (name, value) => do
      return (← encodeURIComponent name) ++ utf16 "=" ++ (← encodeURIComponent value)) = .ok parts) :
    (∀ entry ∈ query, Encodes entry.1 ∧ Encodes entry.2.value) ∧
      parts = query.map fun entry => pairText (written entry) := by
  induction query generalizing parts with
  | nil =>
      obtain rfl := Except.ok.inj built
      exact ⟨nofun, rfl⟩
  | cons entry query ih =>
      rw [List.map_cons, List.mapM_cons] at built
      simp only [bind, Except.bind] at built
      cases key : encodeURIComponent entry.1 with
      | error error => simp [key] at built
      | ok encodedKey =>
          cases value : encodeURIComponent entry.2.value with
          | error error => simp [key, value] at built
          | ok encodedValue =>
              simp only [key, value] at built
              simp only [pure, Except.pure] at built
              split at built
              · cases built
              · next parts later =>
                  obtain rfl := Except.ok.inj built
                  obtain ⟨texts, rest⟩ := ih later
                  obtain ⟨keyText, rfl⟩ := encodeURIComponent_escaped key
                  obtain ⟨valueText, rfl⟩ := encodeURIComponent_escaped value
                  refine ⟨List.forall_mem_cons.mpr ⟨⟨keyText, valueText⟩, texts⟩, ?_⟩
                  rw [rest]
                  rfl

/-- The query that the gate writes, of texts only. -/
theorem queryString_fields {query : Query} {text : Units} (built : Gate.queryString query.fields = .ok text) :
    (∀ entry ∈ query, Encodes entry.1 ∧ Encodes entry.2.value) ∧
      text = if query = [] then [] else
        utf16 "?" ++ List.intercalate (utf16 "&") (query.map fun entry => pairText (written entry)) := by
  have pairs : query.fields.filterMap (fun entry => entry.2.value.map (entry.1, ·)) =
      query.map fun entry => (entry.1, entry.2.value) := by
    have each : query.filterMap (some ∘ fun entry => (entry.1, entry.2.value)) =
        query.map fun entry => (entry.1, entry.2.value) := congrFun List.filterMap_eq_map query
    rw [Query.fields, List.filterMap_map]
    exact each
  unfold Gate.queryString at built
  rw [pairs] at built
  simp only [bind, Except.bind] at built
  split at built
  · cases built
  · next parts read =>
      obtain ⟨texts, rfl⟩ := parts_of_query read
      refine ⟨texts, (Except.ok.inj built).symm.trans ?_⟩
      simp only [List.map_eq_nil_iff]

/-- A parameter of the address is read as it was written. -/
theorem splitPair_pairText (entry : Units × Parameter) : splitPair (pairText (written entry)) = written entry := by
  have plain : ∀ unit ∈ (written entry).1, decide (unit ≠ 61) := by
    intro unit member
    rw [decide_eq_true_eq]
    rintro rfl
    exact not_mem_escaped (b := 61) (by decide) (by decide) entry.1 member
  have shape : pairText (written entry) = (written entry).1 ++ 61 :: (written entry).2 := by
    rw [pairText, List.append_assoc]
    rfl
  rw [splitPair, shape, List.takeWhile_append_of_pos plain, List.dropWhile_append_of_pos plain,
    List.takeWhile_cons_of_neg (by decide), List.dropWhile_cons_of_neg (by decide), List.append_nil]
  rfl

theorem not_mem_pairText (entry : Units × Parameter) : 38 ∉ pairText (written entry) := by
  rw [pairText, List.mem_append, List.mem_append, not_or, not_or]
  exact ⟨⟨not_mem_escaped (b := 38) (by decide) (by decide) _, by decide⟩,
    not_mem_escaped (b := 38) (by decide) (by decide) _⟩

/-- **The address has one parameter for each key**, escaped once more. -/
theorem parametersOf_queryString {query : Query} {text : Units}
    (built : Gate.queryString query.fields = .ok text) : parametersOf text = some (query.map written) := by
  obtain ⟨-, shape⟩ := queryString_fields built
  split_ifs at shape with none
  · rw [shape, none]
    rfl
  · have parts : ∀ part ∈ query.map fun entry => pairText (written entry), 38 ∉ part := by
      intro part member
      obtain ⟨entry, -, rfl⟩ := List.mem_map.mp member
      exact not_mem_pairText entry
    have some' : (query.map fun entry => pairText (written entry)) ≠ [] := by
      rw [Ne, List.map_eq_nil_iff]
      exact none
    have start : text = 63 :: List.intercalate [38] (query.map fun entry => pairText (written entry)) := shape
    rw [start, parametersOf, List.splitOn_intercalate 38 parts some', List.map_map]
    exact congrArg some (List.map_congr_left fun entry _ => splitPair_pairText entry)

/-! ## The same request -/

/-- **What the gate writes is the same request exactly when no key is repeated and nothing needs an
escape.** -/
theorem sameRequest_iff {query : Query} {uri text : Units} (built : Gate.queryString query.fields = .ok text) :
    SameRequest uri query (uri ++ text) ↔ query.Plain := by
  obtain ⟨texts, -⟩ := queryString_fields built
  have read := parametersOf_queryString built
  constructor
  · rintro ⟨other, parameters, same, read', perm⟩
    obtain rfl := List.append_cancel_left same
    obtain rfl := Option.some.inj (read.symm.trans read')
    have keyGrows : ∀ entry ∈ query, entry.1.length ≤ (escaped entry.1).length :=
      fun entry member => length_le_escaped (texts entry member).1
    have valueGrows : ∀ entry ∈ query, entry.2.value.length ≤ (escaped entry.2.value).length :=
      fun entry member => length_le_escaped (texts entry member).2
    have single := single_of_perm (fun pair : Units × Units => pair.1.length + pair.2.length)
      (fun entry => (entry.1, entry.2.value))
      (fun entry _ => List.mem_map_of_mem entry.2.value_mem)
      (fun entry member => Nat.add_le_add (keyGrows entry member) (valueGrows entry member)) perm
    intro entry member
    obtain ⟨values, sizes⟩ := single entry member
    have key := keyGrows entry member
    have value := valueGrows entry member
    simp only [written] at sizes
    refine ⟨?_, unreserved_of_length (texts entry member).1 (by omega),
      unreserved_of_length (texts entry member).2 (by omega)⟩
    obtain ⟨held, shape, same⟩ := List.map_eq_singleton_iff.mp values
    rw [shape, ← (Prod.mk.inj same).2]
  · intro plain
    refine ⟨text, query.map written, rfl, read, List.Perm.of_eq ?_⟩
    rw [Query.parameters, List.map_eq_flatMap]
    refine List.flatMap_congr fun entry member => ?_
    obtain ⟨values, key, value⟩ := plain entry member
    rw [values, written, escaped_of_unreserved key, escaped_of_unreserved value]
    rfl

/-! ## The way back -/

/-- A control character, as a unit. -/
def isControlUnit (unit : UInt16) : Bool := unit.toNat < 0x20 || (0x7f ≤ unit.toNat && unit.toNat ≤ 0x9f)

theorem isControlUnit_written {text : Units} : ∀ unit ∈ escaped text, isControlUnit unit = false := by
  have every : ∀ b, scriptKeeps b ∨ isEscape b → isControlUnit (widen b) = false := forall_byte (by decide +kernel)
  intro unit member
  obtain ⟨b, found, rfl⟩ := List.mem_map.mp member
  exact every b (mem_escape found)

theorem isControlUnit_pairText (entry : Units × Parameter) :
    ∀ unit ∈ pairText (written entry), isControlUnit unit = false := by
  have sign : ∀ unit ∈ utf16 "=", isControlUnit unit = false := forall_mem_of_all (by decide)
  exact List.forall_mem_append.mpr
    ⟨List.forall_mem_append.mpr ⟨isControlUnit_written, sign⟩, isControlUnit_written⟩

/-- A property of the separator and of every part is one of the whole. -/
theorem forall_mem_intercalate {α : Type} {property : α → Prop} {separator : List α} {parts : List (List α)}
    (between : ∀ a ∈ separator, property a) (each : ∀ part ∈ parts, ∀ a ∈ part, property a) :
    ∀ a ∈ List.intercalate separator parts, property a := by
  induction parts with
  | nil => exact nofun
  | cons part parts ih =>
      obtain ⟨first, rest⟩ := List.forall_mem_cons.mp each
      cases parts with
      | nil =>
          rw [List.intercalate_singleton]
          exact first
      | cons next parts =>
          rw [List.intercalate_cons_cons]
          exact List.forall_mem_append.mpr ⟨List.forall_mem_append.mpr ⟨first, between⟩, ih rest⟩

/-- The gate's query has no control characters. -/
theorem isControlUnit_queryString {query : Query} {text : Units}
    (built : Gate.queryString query.fields = .ok text) : ∀ unit ∈ text, isControlUnit unit = false := by
  obtain ⟨-, rfl⟩ := queryString_fields built
  split_ifs
  · exact nofun
  · refine List.forall_mem_append.mpr ⟨forall_mem_of_all (by decide),
      forall_mem_intercalate (forall_mem_of_all (by decide)) fun part member => ?_⟩
    obtain ⟨entry, -, rfl⟩ := List.mem_map.mp member
    exact isControlUnit_pairText entry

/-- It starts with a mark, if it is there. -/
theorem head_queryString {query : Query} {text : Units} (built : Gate.queryString query.fields = .ok text) :
    text[0]? = none ∨ text[0]? = some 63 := by
  obtain ⟨-, rfl⟩ := queryString_fields built
  split_ifs
  · exact .inl rfl
  · exact .inr rfl

/-- The first unit of a text is its first character's. -/
theorem head_utf16 {mark : Char} (ascii : mark.toNat < 0x80) (chars : List Char) :
    (chars.flatMap encodeUtf16)[0]? = some (.ofNat mark.toNat) ↔ chars[0]? = some mark := by
  cases chars with
  | nil => exact ⟨nofun, nofun⟩
  | cons c chars =>
      rw [List.flatMap_cons, List.getElem?_cons_zero, Option.some.injEq]
      constructor
      · intro first
        refine eq_of_mem_encodeUtf16 ascii ?_
        have there : encodeUtf16 c ≠ [] := by
          rw [encodeUtf16]
          split_ifs
          · exact List.cons_ne_nil _ _
          · exact List.cons_ne_nil _ _
        obtain ⟨unit, units, shape⟩ := List.exists_cons_of_ne_nil there
        rw [shape, List.cons_append, List.getElem?_cons_zero, Option.some.injEq] at first
        rw [shape, first]
        exact List.mem_cons_self
      · rintro rfl
        rw [encodeUtf16_ascii ascii]
        rfl

/-- A path of this site, by its units. -/
theorem onSite_of_units {path : String} (rooted : (utf16 path)[0]? = some 47)
    (second : (utf16 path)[1]? ≠ some 47 ∧ (utf16 path)[1]? ≠ some 92)
    (plain : ∀ unit ∈ utf16 path, isControlUnit unit = false) : NoJs.OnSite path := by
  rw [utf16] at rooted second plain
  have root : path.toList[0]? = some '/' := (head_utf16 (by decide : ('/' : Char).toNat < 0x80) _).mp rooted
  obtain ⟨rest, chars⟩ : ∃ rest, path.toList = '/' :: rest := by
    rw [← List.head?_eq_getElem?] at root
    exact List.head?_eq_some_iff.mp root
  have tail : ∀ unit, (path.toList.flatMap encodeUtf16)[1]? = some unit ↔ (rest.flatMap encodeUtf16)[0]? = some unit := by
    intro unit
    rw [chars]
    exact Iff.rfl
  refine ⟨root, ⟨fun slash => ?_, fun backslash => ?_⟩, ?_⟩
  · rw [chars, List.getElem?_cons_succ] at slash
    exact second.1 ((tail _).mpr ((head_utf16 (by decide : ('/' : Char).toNat < 0x80) rest).mpr slash))
  · rw [chars, List.getElem?_cons_succ] at backslash
    exact second.2 ((tail _).mpr ((head_utf16 (by decide : ('\\' : Char).toNat < 0x80) rest).mpr backslash))
  · rw [List.any_eq_false]
    intro c member control
    rw [NoJs.isControl, Bool.or_eq_true, Bool.and_eq_true, decide_eq_true_eq, decide_eq_true_eq,
      decide_eq_true_eq] at control
    have unit : encodeUtf16 c = [.ofNat c.toNat] := if_pos (by omega)
    have inside : UInt16.ofNat c.toNat ∈ path.toList.flatMap encodeUtf16 :=
      List.mem_flatMap.mpr ⟨c, member, by rw [unit]; exact List.mem_singleton_self _⟩
    have found := plain _ inside
    rw [isControlUnit, toNat_ofNat_unit (by omega)] at found
    simp only [Bool.or_eq_false_iff, Bool.and_eq_false_iff, decide_eq_false_iff_not] at found
    omega

/-- A navigation that the gate refused, and where it sent it: the request is for a path of this site
without control characters, and the waiting page's own path has neither a query nor a fragment. -/
structure Refused (gate : Gate) (kvs : Kvs) (now : ℕ) (event : Edge.Event) (query : Query) (location : Units) :
    Prop where
  waitingPath : '?' ∉ gate.waitingPath.toList ∧ '#' ∉ gate.waitingPath.toList
  parameters : event.request.querystring = query.fields
  redirected : ∃ response, gate.handler kvs now event = .respond response ∧
    ownProperty response.headers (utf16 "location") = some ⟨some location⟩
  rooted : event.request.uri[0]? = some 47
  second : event.request.uri[1]? ≠ some 47 ∧ event.request.uri[1]? ≠ some 92
  plain : ∀ unit ∈ event.request.uri, isControlUnit unit = false

/-- What the page without a script has of the address: the `Referer` after its first `?`. -/
def refererQuery (location : Units) : String := textOf ((search location).drop 1)

/-- **Both pages send the visitor where the gate said**: to the path, with the gate's query. -/
theorem next_of_refusal {gate : Gate} {kvs : Kvs} {now : ℕ} {event : Edge.Event} {query : Query}
    {location : Units} (refused : Refused gate kvs now event query location) :
    ∃ text, Gate.queryString query.fields = .ok text ∧
      nextDestination (search location) = event.request.uri ++ text ∧
      utf16 (NoJs.safeNext (NoJs.nextParam (refererQuery location))) = event.request.uri ++ text := by
  obtain ⟨response, responds, located⟩ := refused.redirected
  obtain ⟨reason, known, refusal⟩ := handler_respond responds
  obtain ⟨text, next, built, encoded, shape⟩ := refuse_location refusal located
  have asked : (Gate.stripSpoofableHeaders event.request).querystring = query.fields := refused.parameters
  rw [asked] at built
  have target : (Gate.stripSpoofableHeaders event.request).uri = event.request.uri := rfl
  rw [target] at encoded
  obtain ⟨⟨destination, same⟩, rfl⟩ := encodeURIComponent_escaped encoded
  obtain ⟨first, others, uri⟩ : ∃ first others, event.request.uri = first :: others := by
    cases uri : event.request.uri with
    | nil => exact absurd (uri ▸ refused.rooted) nofun
    | cons first others => exact ⟨first, others, rfl⟩
  have rooted : (utf16 destination)[0]? = some 47 := by
    rw [← same, uri, List.cons_append, List.getElem?_cons_zero, ← refused.rooted, uri, List.getElem?_cons_zero]
  have second : ∀ unit : UInt16, unit ≠ 63 →
      event.request.uri[1]? ≠ some unit → (utf16 destination)[1]? ≠ some unit := by
    intro unit noMark absent there
    rw [← same, uri, List.cons_append, List.getElem?_cons_succ] at there
    rw [uri, List.getElem?_cons_succ] at absent
    cases others with
    | nil =>
        rw [List.nil_append] at there
        rcases head_queryString built with none | mark
        · exact absurd (none.symm.trans there) nofun
        · exact noMark (Option.some.inj (there.symm.trans mark))
    | cons unit' others => exact absent there
  have away := And.intro (second 47 (by decide) refused.second.1) (second 92 (by decide) refused.second.2)
  have plain : ∀ unit ∈ utf16 destination, isControlUnit unit = false := by
    rw [← same]
    exact List.forall_mem_append.mpr ⟨refused.plain, isControlUnit_queryString built⟩
  rw [escaped, same, bytesOf_utf16] at shape
  have read := search_location known refused.waitingPath shape
  refine ⟨text, built, ?_, ?_⟩
  · rw [read, nextDestination_search known rooted away, same]
  · rw [refererQuery, read, safeNext_search known (onSite_of_units rooted away plain), same]

/-- **A refused visitor gets back to the request they made exactly when no key is repeated and nothing
needs an escape**, with the script and without; and a path that is sent to the page without a script
comes back. -/
theorem refused_visitor_returns (gate : Gate) (kvs : Kvs) (now : ℕ) (event : Edge.Event) (query : Query)
    (location : Units) (raw : Option String) :
    (Refused gate kvs now event query location →
      (SameRequest event.request.uri query (nextDestination (search location)) ↔ query.Plain) ∧
        (SameRequest event.request.uri query
          (utf16 (NoJs.safeNext (NoJs.nextParam (refererQuery location)))) ↔ query.Plain)) ∧
      NoJs.safeNext (NoJs.nextParam ("next=" ++ NoJs.encodeComponent (NoJs.safeNext raw))) =
        NoJs.safeNext raw := by
  refine ⟨fun refused => ?_, ?_⟩
  · obtain ⟨text, built, script, noScript⟩ := next_of_refusal refused
    rw [script, noScript]
    exact ⟨sameRequest_iff built, sameRequest_iff built⟩
  · exact NoJs.safeNext_encodeComponent (NoJs.onSite_safeNext raw)

namespace Sample

/-- A gate in front of a shop. -/
def shopGate : Gate := { Edge.Sample.latinGate with waitingPath := "/_wr/waiting.html" }

def shopKvs : Kvs :=
  ⟨.ok ⟨.finite 1, .finite 0, .finite 0, [ProtectionRule.wire (.pathPrefix "/shop")], false⟩, .ok (utf16 "secret")⟩

/-- A visit to the shop without a session. -/
def visit (query : Query) : Edge.Event := ⟨⟨utf16 "/shop", [], [], query.fields⟩, utf16 "192.0.2.1"⟩

/-- `?id=1`. -/
def one : Query := [(utf16 "id", ⟨utf16 "1", [], .inl rfl⟩)]

/-- `?color=red&color=blue`. -/
def twice : Query :=
  [(utf16 "color", ⟨utf16 "red", [utf16 "red", utf16 "blue"], .inr List.mem_cons_self⟩)]

/-- Where the gate sends a visit. -/
def locationOf (outcome : Edge.Outcome) : Option Units :=
  match outcome with
  | .respond response => (ownProperty response.headers (utf16 "location")).bind Field.value
  | .origin _ => none

theorem redirected_of_locationOf {outcome : Edge.Outcome} {location : Units}
    (found : locationOf outcome = some location) :
    ∃ response, outcome = .respond response ∧
      ownProperty response.headers (utf16 "location") = some ⟨some location⟩ := by
  cases outcome with
  | origin request => cases found
  | respond response =>
      obtain ⟨⟨value⟩, there, rfl⟩ := Option.bind_eq_some_iff.mp found
      exact ⟨response, rfl, there⟩

/-- The visit is refused, whatever its parameters, if they are texts. -/
theorem refused_visit (query : Query) (location : Units)
    (found : locationOf (shopGate.handler shopKvs 100 (visit query)) = some location) :
    Refused shopGate shopKvs 100 (visit query) query location := by
  have rooted : (utf16 "/shop")[0]? = some 47 := by decide
  have second : (utf16 "/shop")[1]? ≠ some 47 ∧ (utf16 "/shop")[1]? ≠ some 92 := by decide
  have plain : ∀ unit ∈ utf16 "/shop", isControlUnit unit = false := forall_mem_of_all (by decide)
  exact ⟨by decide, rfl, redirected_of_locationOf found, rooted, second, plain⟩

end Sample

/-- One plain parameter comes back. -/
theorem refused_visitor_returns_sample :
    SameRequest (utf16 "/shop") Sample.one
      (nextDestination (search (utf16 "/_wr/waiting.html?r=none&next=%2Fshop%3Fid%3D1"))) := by
  have refused := Sample.refused_visit Sample.one
    (utf16 "/_wr/waiting.html?r=none&next=%2Fshop%3Fid%3D1") (by decide +kernel)
  exact ((refused_visitor_returns _ _ _ _ _ _ none).1 refused).1.mpr (by decide +kernel)

/-- **The second of two colors is lost.** -/
theorem repeated_key_is_lost : ¬ ∀ gate kvs now event query location,
    Refused gate kvs now event query location →
      SameRequest event.request.uri query (nextDestination (search location)) := by
  intro every
  have refused := Sample.refused_visit Sample.twice
    (utf16 "/_wr/waiting.html?r=none&next=%2Fshop%3Fcolor%3Dred") (by decide +kernel)
  obtain ⟨text, built, script, -⟩ := next_of_refusal refused
  have same := every _ _ _ _ _ _ refused
  rw [script] at same
  have plain := (sameRequest_iff built).mp same _ List.mem_cons_self
  exact absurd plain.1 (by decide +kernel)

end WaitingRoom.Page
