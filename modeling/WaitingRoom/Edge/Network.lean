import WaitingRoom.Edge.Credentials
import WaitingRoom.Text.Addresses

/-!
# The network of an address

The minter tags a session with the network of the address it was minted for, from a parsed address
(`ipNetwork`). The gate takes it from the text, by counting the groups on both sides of `::`
(`Gate.ipInput`), and counts a dotted quad as one group where it is two. The two agree on every
address but those whose groups a shift by one changes (`ip_networks_agree`, `gate_counts_a_quad_once`).
-/

set_option autoImplicit false

namespace WaitingRoom.Edge

open Text

/-! ## The two texts -/

/-- A number in lowercase hex. -/
def hexText (n : ℕ) : String := String.ofList (Nat.toDigits 16 n)

/-- The network an address tag binds to: the dotted address, or the first four groups. -/
def ipNetwork (ip : String) : Option String :=
  (parseIpAddr ip.toList).map fun
    | .v4 octets => ".".intercalate (octets.toList.map fun octet => octet.toNat.repr)
    | .v6 segments => ":".intercalate ((segments.toList.take 4).map fun group => hexText group.toNat)

namespace Gate

/-- The text the gate's tag is keyed over. -/
def ipInput (ip : Units) : Option Units :=
  if isDottedQuad ip then some ip
  else if indexOf (utf16 ":") ip = none then none
  else some (List.intercalate (utf16 ":") (ipGroups ip))

theorem ipTag_eq (gate : Gate) (secret ip : Units) :
    gate.ipTag secret ip =
      match ipInput ip with
      | some n => .string ((gate.digest (gate.derive secret "vwr/ip/v1") n).take 22)
      | none => .null := by
  rw [ipTag, ipInput]
  split_ifs <;> rfl

/-- There is a dotted quad behind `::`, and of the groups in front of it one before the last two is
not zero. -/
def quadShifts (ip : Units) : Bool :=
  match splitColons ip with
  | [_, tail] =>
      (tail.splitOn 58).any (·.contains 46) &&
        ((tail.splitOn 58).take ((tail.splitOn 58).length - 3)).any fun group =>
          parseHex group != some 0
  | _ => false

example : quadShifts (utf16 "1::2:3:4:198.51.100.7") ∧ ¬ quadShifts (utf16 "::ffff:198.51.100.7") := by
  decide +kernel

/-! ## Splitting -/

section Splitting

/-- A part that is there, without a colon. -/
def IsPart (part : Units) : Prop := part ≠ [] ∧ 58 ∉ part

/-- Text in front of the first of some parts. -/
def glue (text : Units) : List Units → List Units
  | part :: parts => (text ++ part) :: parts
  | [] => [text]

variable {part text rest : Units} {parts : List Units} {index : ℕ}

theorem splitColons_cons {unit : UInt16} (other : ¬ (unit = 58 ∧ rest.head? = some 58)) :
    splitColons (unit :: rest) = glue [unit] (splitColons rest) := by
  rw [splitColons]
  · cases splitColons rest <;> rfl
  · rintro later rfl rfl
    exact other ⟨rfl, rfl⟩

theorem glue_glue (first second : Units) (parts : List Units) :
    glue first (glue second parts) = glue (first ++ second) parts := by
  cases parts with
  | nil => rfl
  | cons part parts => simp only [glue, List.append_assoc]

theorem glue_nil (nonempty : parts ≠ []) : glue [] parts = parts := by
  cases parts with
  | nil => exact absurd rfl nonempty
  | cons part parts => rfl

theorem splitColons_ne_nil (text : Units) : splitColons text ≠ [] := by
  fun_induction splitColons text <;> simp

/-- Text without a colon is part of the first part. -/
theorem splitColons_append (plain : 58 ∉ part) (rest : Units) :
    splitColons (part ++ rest) = glue part (splitColons rest) := by
  induction part with
  | nil => exact (glue_nil (splitColons_ne_nil rest)).symm
  | cons unit part ih =>
      obtain ⟨other, plain⟩ := not_or.mp (List.mem_cons.not.mp plain)
      rw [List.cons_append, splitColons_cons fun both => other both.1.symm, ih plain, glue_glue]
      rfl

/-- A colon in front of a part is part of it. -/
theorem splitColons_colon (isPart : IsPart part) (rest : Units) :
    splitColons (58 :: part ++ rest) = glue (58 :: part) (splitColons rest) := by
  obtain ⟨some, plain⟩ := isPart
  cases part with
  | nil => exact absurd rfl some
  | cons unit part =>
      have first : (unit :: part ++ rest).head? ≠ Option.some 58 := fun same =>
        plain (by rw [Option.some.inj same]; exact List.mem_cons_self)
      rw [List.cons_append, splitColons_cons fun both => first both.2, splitColons_append plain, glue_glue]
      rfl

/-- **Parts joined by single colons are not split.** -/
theorem splitColons_spell (all : ∀ part ∈ parts, IsPart part) (index : ℕ) (rest : Units) :
    splitColons (spell 58 index parts ++ rest) = glue (spell 58 index parts) (splitColons rest) := by
  induction parts generalizing index with
  | nil =>
      have nothing : spell 58 index ([] : List Units) = [] := by cases index <;> rfl
      rw [nothing, List.nil_append, glue_nil (splitColons_ne_nil rest)]
  | cons part parts ih =>
      have isPart := all part List.mem_cons_self
      have later := ih (fun other member => all other (List.mem_cons_of_mem _ member)) (index + 1)
      rw [spell_cons, List.append_assoc]
      split_ifs
      · rw [splitColons_append isPart.2, later, glue_glue]
      · rw [splitColons_colon isPart, later, glue_glue]

theorem splitColons_plain (all : ∀ part ∈ parts, IsPart part) :
    splitColons (spell 58 0 parts) = [spell 58 0 parts] := by
  have split := splitColons_spell all 0 []
  rw [List.append_nil] at split
  rw [split]
  simp [splitColons, glue]

theorem splitColons_compressed {parts' : List Units} (all : ∀ part ∈ parts, IsPart part)
    (all' : ∀ part ∈ parts', IsPart part) :
    splitColons (spell 58 0 parts ++ 58 :: 58 :: spell 58 0 parts') =
      [spell 58 0 parts, spell 58 0 parts'] := by
  rw [splitColons_spell all, splitColons, splitColons_plain all', glue, List.append_nil]

/-- The groups of a part of an address. -/
theorem splitOn_spell (all : ∀ part ∈ parts, IsPart part) (some : parts ≠ []) :
    (spell 58 0 parts).splitOn 58 = parts := by
  rw [spell_zero, List.splitOn_intercalate 58 (fun part member => (all part member).2) some]

theorem spell_ne_nil (all : ∀ part ∈ parts, IsPart part) (some : parts ≠ []) : spell 58 0 parts ≠ [] := by
  cases parts with
  | nil => exact absurd rfl some
  | cons part parts =>
      rw [spell_cons, if_pos rfl]
      exact List.append_ne_nil_of_left_ne_nil (all part List.mem_cons_self).1 _

end Splitting

/-! ## Groups as the script reads them -/

/-- The units of a part of an address. -/
def units (part : List Char) : Units := part.flatMap encodeUtf16

section Groups

variable {text : List Char} {group : UInt16} {c : Char} {n : ℕ}

/-- The script reads the digits the parser reads. -/
theorem hexVal_unit (digit : toDigit 16 c = some n) :
    c.toNat < 0x80 ∧ n < 16 ∧ hexVal (.ofNat c.toNat) = some (.ofNat n) := by
  obtain ⟨read, small⟩ := Option.filter_eq_some_iff.mp digit
  have below : n < 16 := of_decide_eq_true small
  split_ifs at read with decimal upper lower
  · have least : 48 ≤ c.toNat := decimal.1
    have greatest : c.toNat ≤ 57 := decimal.2
    obtain rfl := Option.some.inj read
    generalize c.toNat = code at *
    interval_cases code <;> decide
  · have least : 65 ≤ c.toNat := upper.1
    obtain rfl := Option.some.inj read
    generalize c.toNat = code at *
    have greatest : code ≤ 70 := by omega
    interval_cases code <;> decide
  · have least : 97 ≤ c.toNat := lower.1
    obtain rfl := Option.some.inj read
    generalize c.toNat = code at *
    have greatest : code ≤ 102 := by omega
    interval_cases code <;> decide

theorem units_hex (digits : ∀ c ∈ text, (toDigit 16 c).isSome) :
    units text = text.map fun c => .ofNat c.toNat := by
  refine flatMap_encodeUtf16_ascii fun c member => ?_
  obtain ⟨n, digit⟩ := Option.isSome_iff_exists.mp (digits c member)
  exact (hexVal_unit digit).1

/-- The units of hex digits are hex digits. -/
theorem isSome_hexVal (digits : ∀ c ∈ text, (toDigit 16 c).isSome) :
    ∀ unit ∈ units text, (hexVal unit).isSome := by
  rw [units_hex digits]
  intro unit member
  obtain ⟨c, inside, rfl⟩ := List.mem_map.mp member
  obtain ⟨n, digit⟩ := Option.isSome_iff_exists.mp (digits c inside)
  rw [(hexVal_unit digit).2.2]
  rfl

/-- The value of hex digits, from the left. -/
theorem foldl_hexVal (digits : ∀ c ∈ text, (toDigit 16 c).isSome) (start : ℕ) :
    ((units text).filterMap hexVal).foldl (fun value digit => value * 16 + digit.toNat) start =
      text.foldl (fun value c => value * 16 + (toDigit 16 c).getD 0) start := by
  rw [units_hex digits]
  induction text generalizing start with
  | nil => rfl
  | cons c text ih =>
      obtain ⟨n, digit⟩ := Option.isSome_iff_exists.mp (digits c List.mem_cons_self)
      obtain ⟨-, small, read⟩ := hexVal_unit digit
      have whole : (UInt16.ofNat n).toNat = n := toNat_ofNat_unit (by omega)
      rw [List.map_cons, List.filterMap_cons_some read, List.foldl_cons, List.foldl_cons, whole, digit,
        Option.getD_some]
      exact ih (fun other member => digits other (List.mem_cons_of_mem _ member)) _

/-- **A group reads as its value.** -/
theorem parseHex_units (hextet : Hextet text group) : parseHex (units text) = some group.toNat := by
  have all := isSome_hexVal hextet.digits
  have prefix_ : (units text).takeWhile (fun unit => (hexVal unit).isSome) = units text :=
    List.takeWhile_eq_self_iff.mpr all
  have value := foldl_hexVal hextet.digits 0
  rw [← valueOf, hextet.value] at value
  rw [parseHex, prefix_]
  split
  · rename_i none
    rw [units_hex hextet.digits] at none
    cases text with
    | nil => exact absurd rfl hextet.some
    | cons c text =>
        obtain ⟨n, digit⟩ := Option.isSome_iff_exists.mp (hextet.digits c List.mem_cons_self)
        rw [List.map_cons, List.filterMap_cons_some (hexVal_unit digit).2.2] at none
        cases none
  · rw [value]

theorem normalizeGroup_units (hextet : Hextet text group) :
    normalizeGroup (some (units text)) = utf16 (hexText group.toNat) := by
  rw [normalizeGroup, Option.bind_some, parseHex_units hextet]
  rfl

theorem isPart_units (hextet : Hextet text group) : IsPart (units text) ∧ 46 ∉ units text := by
  have all := isSome_hexVal hextet.digits
  refine ⟨⟨?_, fun colon => ?_⟩, fun dot => ?_⟩
  · rw [units_hex hextet.digits]
    exact fun none => hextet.some (List.map_eq_nil_iff.mp none)
  · exact absurd (all 58 colon) (by decide)
  · exact absurd (all 46 dot) (by decide)

end Groups

/-! ## Dotted quads -/

section Quads

variable {octets : Vector UInt8 4} {ip : Units} {n : ℕ}

/-- The units of a decimal number are digits. -/
theorem isDigit_units (n : ℕ) : units (Nat.toDigits 10 n) =
      (Nat.toDigits 10 n).map (fun c => .ofNat c.toNat) ∧
    ∀ unit ∈ units (Nat.toDigits 10 n), isDigit unit := by
  have decimal : ∀ c ∈ Nat.toDigits 10 n, 48 ≤ c.toNat ∧ c.toNat ≤ 57 := by
    intro c member
    exact Char.isDigit_iff_toNat.mp (Nat.isDigit_of_mem_toDigits (by decide) (by decide) member)
  have plain : units (Nat.toDigits 10 n) = (Nat.toDigits 10 n).map fun c => .ofNat c.toNat :=
    flatMap_encodeUtf16_ascii fun c member => by have := decimal c member; omega
  refine ⟨plain, fun unit member => ?_⟩
  rw [plain] at member
  obtain ⟨c, inside, rfl⟩ := List.mem_map.mp member
  obtain ⟨least, greatest⟩ := decimal c inside
  generalize c.toNat = code at *
  interval_cases code <;> decide

theorem units_quadText (octets : Vector UInt8 4) : units (quadText octets) =
    spell 46 0 (octets.toList.map fun octet => units (Nat.toDigits 10 octet.toNat)) := by
  have dot : encodeUtf16 '.' = [46] := by decide
  rw [units, quadText, flatMap_spell dot, List.map_map]
  rfl

theorem not_mem_units {unit : UInt16} (other : isDigit unit = false) (n : ℕ) :
    unit ∉ units (Nat.toDigits 10 n) := by
  intro member
  rw [(isDigit_units n).2 unit member] at other
  cases other

theorem splitOn_quadText (octets : Vector UInt8 4) : (units (quadText octets)).splitOn 46 =
    octets.toList.map fun octet => units (Nat.toDigits 10 octet.toNat) := by
  rw [units_quadText, spell_zero, List.splitOn_intercalate]
  · intro part member
    obtain ⟨octet, -, rfl⟩ := List.mem_map.mp member
    exact not_mem_units (by decide) octet.toNat
  · intro none
    have length := congrArg List.length none
    simp at length

/-- **The script takes dotted decimal as it is.** -/
theorem isDottedQuad_quadText (octets : Vector UInt8 4) : isDottedQuad (units (quadText octets)) := by
  rw [isDottedQuad, splitOn_quadText, Bool.and_eq_true]
  refine ⟨by simp, List.all_eq_true.mpr fun part member => ?_⟩
  obtain ⟨octet, -, rfl⟩ := List.mem_map.mp member
  obtain ⟨plain, digits⟩ := isDigit_units octet.toNat
  have few : (Nat.toDigits 10 octet.toNat).length ≤ 3 :=
    (Nat.length_toDigits_le_iff (by decide) (by decide)).mpr (by have := octet.toNat_lt; omega)
  have some := Nat.length_toDigits_pos (b := 10) (n := octet.toNat)
  have length : (units (Nat.toDigits 10 octet.toNat)).length = (Nat.toDigits 10 octet.toNat).length := by
    rw [plain, List.length_map]
  simp only [Bool.and_eq_true, decide_eq_true_eq, length, List.all_eq_true]
  exact ⟨⟨some, few⟩, digits⟩

/-- What has a colon is no dotted quad. -/
theorem isDottedQuad_of_colon (colon : 58 ∈ ip) : isDottedQuad ip = false := by
  rw [Bool.eq_false_iff]
  intro quad
  rw [isDottedQuad, Bool.and_eq_true, List.all_eq_true] at quad
  have joined : [46].intercalate (ip.splitOn 46) = ip := List.intercalate_splitOn 46
  rw [← joined, ← spell_zero] at colon
  rcases mem_spell colon with dot | ⟨part, member, inside⟩
  · exact absurd dot (by decide)
  · have digits := quad.2 part member
    simp only [Bool.and_eq_true, List.all_eq_true] at digits
    exact absurd (digits.2 58 inside) (by decide)

/-- A dotted quad is one part of an address. -/
theorem isPart_quadText (octets : Vector UInt8 4) :
    IsPart (units (quadText octets)) ∧ 46 ∈ units (quadText octets) := by
  have dot : 46 ∈ units (quadText octets) := by
    rw [units_quadText]
    have length := octets.length_toList
    match numbers : octets.toList with
    | [] | [_] =>
        rw [numbers] at length
        cases length
    | one :: two :: rest => simp [spell]
  refine ⟨⟨List.ne_nil_of_mem dot, fun colon => ?_⟩, dot⟩
  rw [units_quadText] at colon
  rcases mem_spell colon with same | ⟨part, member, inside⟩
  · exact absurd same (by decide)
  · obtain ⟨octet, -, rfl⟩ := List.mem_map.mp member
    exact not_mem_units (by decide) octet.toNat inside

end Quads

/-! ## The groups of an accepted address -/

section Accepted

variable {written : Written} {text : List Char} {segments : List UInt16}

/-- The parts of written groups, as the script splits them. -/
def partsOf (written : Written) : List Units := written.parts.map units

theorem isPart_partsOf (written : Written) : ∀ part ∈ partsOf written, IsPart part := by
  intro part member
  obtain ⟨source, inside, rfl⟩ := List.mem_map.mp member
  rcases List.mem_append.mp inside with hex | quad
  · obtain ⟨index, bound, rfl⟩ := List.mem_iff_getElem.mp hex
    have within : index < written.values.length := by rwa [← written.hextets.length_eq]
    exact (isPart_units (List.forall₂_iff_get.mp written.hextets |>.2 index bound within)).1
  · obtain ⟨octets, -, rfl⟩ := List.mem_map.mp quad
    exact (isPart_quadText octets).1

/-- The normalized groups of written hex digits are the values'. -/
theorem normalize_texts (written : Written) :
    written.texts.map (fun text => normalizeGroup (some (units text))) =
      written.values.map fun group => utf16 (hexText group.toNat) := by
  have all := written.hextets
  generalize written.texts = texts, written.values = values at all
  induction all with
  | nil => rfl
  | cons hextet _ ih => rw [List.map_cons, List.map_cons, normalizeGroup_units hextet, ih]

theorem units_spell (parts : List (List Char)) :
    units (spell ':' 0 parts) = spell 58 0 (parts.map units) := by
  have colon : encodeUtf16 ':' = [58] := by decide
  rw [units, flatMap_spell colon]
  rfl

/-- The parts on one side of `::`. -/
def sideParts (part : Option Units) : List Units :=
  match part with
  | none | some [] => []
  | some part => part.splitOn 58

theorem sideParts_spell {parts : List Units} (all : ∀ part ∈ parts, IsPart part) :
    sideParts (some (spell 58 0 parts)) = parts := by
  by_cases none : parts = []
  · subst none
    rfl
  · have nonempty := spell_ne_nil all none
    have split := splitOn_spell all none
    cases whole : spell 58 0 parts with
    | nil => exact absurd whole nonempty
    | cons unit rest =>
        rw [whole] at split
        exact split

theorem map_range_four {first : List Units} (four : first.length = 4) :
    (List.range 4).map (fun i => normalizeGroup first[i]?) =
      first.map fun group => normalizeGroup (some group) := by
  refine List.ext_getElem (by simp [four]) fun i inside inside' => ?_
  have bound : i < first.length := by rwa [List.length_map] at inside'
  simp [bound]

/-- **The groups of a text**: those on both sides of `::`, filled up with zeros between. -/
theorem ipGroups_eq (ip : Units) : ipGroups ip =
    let a := sideParts (splitColons ip)[0]?
    let b := sideParts (splitColons ip)[1]?
    let zeros :=
      if 1 < (splitColons ip).length then List.replicate (8 - (a.length + b.length)) (utf16 "0") else []
    (List.range 4).map fun i => normalizeGroup ((a ++ zeros ++ b).take 4)[i]? := by
  rfl

theorem ipGroups_plain {parts : List Units} (all : ∀ part ∈ parts, IsPart part)
    (enough : 4 ≤ parts.length) : ipGroups (spell 58 0 parts) =
      (parts.map fun group => normalizeGroup (some group)).take 4 := by
  have right : sideParts none = [] := rfl
  rw [ipGroups_eq, splitColons_plain all]
  simp only [List.getElem?_cons_zero, List.getElem?_cons_succ, List.getElem?_nil, sideParts_spell all, right,
    List.length_singleton, Nat.lt_irrefl, if_false, List.append_nil]
  rw [map_range_four (by rw [List.length_take]; omega), List.map_take]

theorem ipGroups_compressed {a b : List Units} (all : ∀ part ∈ a, IsPart part)
    (all' : ∀ part ∈ b, IsPart part) :
    ipGroups (spell 58 0 a ++ 58 :: 58 :: spell 58 0 b) =
      ((a ++ List.replicate (8 - (a.length + b.length)) (utf16 "0") ++ b).map
        fun group => normalizeGroup (some group)).take 4 := by
  rw [ipGroups_eq, splitColons_compressed all all']
  have two : 1 < [spell 58 0 a, spell 58 0 b].length := Nat.one_lt_two
  simp only [List.getElem?_cons_zero, List.getElem?_cons_succ, sideParts_spell all, sideParts_spell all',
    if_pos two]
  rw [map_range_four, List.map_take]
  simp only [List.length_take, List.length_append, List.length_replicate]
  omega

/-! ## The gate's groups -/

/-- What the gate takes for the groups of an address behind `::`: one zero too many, if there is a
dotted quad. -/
def gateGroups (head tail : Written) : List UInt16 :=
  head.values ++ List.replicate (8 - (head.parts.length + tail.parts.length)) 0 ++ tail.values

theorem length_quad_le (written : Written) : written.quad.toList.length ≤ 1 := by
  cases written.quad <;> simp

theorem length_gateGroups {head tail : Written} (fits : head.groups.length + tail.groups.length ≤ 7) :
    4 ≤ (gateGroups head tail).length := by
  have counted := head.length_parts
  have counted' := tail.length_parts
  have groups := head.length_groups
  have groups' := tail.length_groups
  have single := length_quad_le head
  have single' := length_quad_le tail
  simp only [gateGroups, List.length_append, List.length_replicate]
  omega

theorem normalize_partsOf (written : Written) :
    ((partsOf written).map fun group => normalizeGroup (some group)) =
      written.values.map (fun group => utf16 (hexText group.toNat)) ++
        (written.quad.toList.map quadText).map fun part => normalizeGroup (some (units part)) := by
  rw [partsOf, Written.parts, List.map_append, List.map_append, List.map_map, ← normalize_texts, List.map_map]
  rfl

/-- **Of eight groups the script takes the first four.** -/
theorem ipGroups_plain_values (written : Written) (whole : written.groups.length = 8) :
    ipGroups (units (spell ':' 0 written.parts)) =
      (written.groups.take 4).map fun group => utf16 (hexText group.toNat) := by
  have groups := written.length_groups
  have parts := written.length_parts
  have single := length_quad_le written
  have enough : 4 ≤ (partsOf written).length := by
    rw [partsOf, List.length_map]
    omega
  have values : 4 ≤ written.values.length := by omega
  rw [units_spell]
  refine (ipGroups_plain (isPart_partsOf written) enough).trans ?_
  rw [normalize_partsOf, List.take_append_of_le_length (by rwa [List.length_map]), Written.groups,
    List.take_append_of_le_length values, List.map_take]

theorem units_compressed (head tail : Written) :
    units (spell ':' 0 head.parts ++ ':' :: ':' :: spell ':' 0 tail.parts) =
      spell 58 0 (partsOf head) ++ 58 :: 58 :: spell 58 0 (partsOf tail) := by
  have colons : units (':' :: ':' :: spell ':' 0 tail.parts) =
      58 :: 58 :: units (spell ':' 0 tail.parts) := rfl
  rw [partsOf, partsOf, ← units_spell, ← units_spell, ← colons]
  exact List.flatMap_append

/-- **Around `::` it counts the parts.** -/
theorem ipGroups_compressed_values (head tail : Written) (hextets : head.quad = none)
    (fits : head.groups.length + tail.groups.length ≤ 7) :
    ipGroups (units (spell ':' 0 head.parts ++ ':' :: ':' :: spell ':' 0 tail.parts)) =
      ((gateGroups head tail).take 4).map fun group => utf16 (hexText group.toNat) := by
  have zero : normalizeGroup (some (utf16 "0")) = utf16 (hexText (0 : UInt16).toNat) := by decide
  have whole : (partsOf head ++ List.replicate (8 - ((partsOf head).length + (partsOf tail).length))
      (utf16 "0") ++ partsOf tail).map (fun group => normalizeGroup (some group)) =
      (gateGroups head tail).map (fun group => utf16 (hexText group.toNat)) ++
        (tail.quad.toList.map quadText).map fun part => normalizeGroup (some (units part)) := by
    rw [List.map_append, List.map_append, normalize_partsOf, normalize_partsOf, List.map_replicate, zero,
      hextets, gateGroups, List.map_append, List.map_append, List.map_replicate]
    simp [partsOf]
  have enough : 4 ≤ ((gateGroups head tail).map fun group => utf16 (hexText group.toNat)).length := by
    rw [List.length_map]
    exact length_gateGroups fits
  rw [units_compressed]
  refine (ipGroups_compressed (isPart_partsOf head) (isPart_partsOf tail)).trans ?_
  rw [whole, List.take_append_of_le_length enough, List.map_take]

end Accepted

/-! ## One zero too many -/

section Shift

variable {α : Type} {zero : α}

/-- A zero in front changes nothing where what it moves is zero. -/
theorem take_cons_eq_iff {n : ℕ} {values : List α} (long : n ≤ values.length) :
    (zero :: values).take n = values.take n ↔ ∀ value ∈ values.take n, value = zero := by
  induction n generalizing values with
  | zero => simp
  | succ n ih =>
      cases values with
      | nil => cases long
      | cons first values =>
          rw [List.take_succ_cons, List.take_succ_cons, List.cons.injEq, List.forall_mem_cons]
          refine ⟨fun ⟨same, shifted⟩ => ⟨same.symm, ?_⟩, fun ⟨same, zeros⟩ => ⟨same.symm, ?_⟩⟩
          · subst same
            exact (ih (Nat.le_of_succ_le_succ long)).mp shifted
          · subst same
            exact (ih (Nat.le_of_succ_le_succ long)).mpr zeros

/-- One more zero in a run of them. -/
theorem take_replicate_eq_iff {k n : ℕ} {values : List α} (long : n ≤ k + values.length) :
    (List.replicate (k + 1) zero ++ values).take n = (List.replicate k zero ++ values).take n ↔
      ∀ value ∈ values.take (n - k), value = zero := by
  induction k generalizing n with
  | zero =>
      have short : n ≤ values.length := by omega
      exact take_cons_eq_iff short
  | succ k ih =>
      cases n with
      | zero => simp
      | succ n =>
          rw [List.replicate_succ, List.replicate_succ (n := k), List.cons_append, List.cons_append,
            List.take_succ_cons, List.take_succ_cons, List.cons.injEq, Nat.succ_sub_succ]
          exact (and_iff_right rfl).trans (ih (by omega))

end Shift

section Agreement

variable {head tail : Written}

/-- The groups of the address itself. -/
def trueGroups (head tail : Written) : List UInt16 :=
  head.groups ++ List.replicate (8 - head.groups.length - tail.groups.length) 0 ++ tail.groups

/-- **The gate's first four groups are the address's own where no group is shifted.** -/
theorem gateGroups_eq_iff (hextets : head.quad = none)
    (fits : head.groups.length + tail.groups.length ≤ 7) :
    (gateGroups head tail).take 4 = (trueGroups head tail).take 4 ↔
      tail.quad = none ∨ ∀ group ∈ tail.values.take (tail.values.length - 2), group = 0 := by
  have counted := head.length_parts
  have counted' := tail.length_parts
  have groups := head.length_groups
  have groups' := tail.length_groups
  have own : head.groups = head.values := by rw [Written.groups, hextets]; simp
  rw [hextets] at counted groups
  rw [gateGroups, trueGroups, own]
  cases quad : tail.quad with
  | none =>
      have ownTail : tail.groups = tail.values := by rw [Written.groups, quad]; simp
      rw [quad] at counted'
      have zeros : 8 - (head.parts.length + tail.parts.length) =
          8 - head.values.length - tail.values.length := by
        simp only [Option.toList_none, List.length_nil, Nat.add_zero] at counted counted'
        omega
      rw [ownTail, zeros]
      exact iff_of_true rfl (.inl rfl)
  | some octets =>
      rw [quad] at counted' groups'
      simp only [Option.toList_none, Option.toList_some, List.length_nil, List.length_singleton, Nat.mul_zero,
        Nat.mul_one, Nat.add_zero] at counted counted' groups groups'
      have behind : tail.groups = tail.values ++ quadGroups octets := by rw [Written.groups, quad]; simp
      obtain ⟨zeros, shorter⟩ : ∃ zeros, 8 - head.values.length - tail.groups.length = zeros ∧
          8 - (head.parts.length + tail.parts.length) = zeros + 1 := ⟨_, rfl, by omega⟩
      have enough : 4 - head.values.length ≤ zeros + tail.values.length := by omega
      have moved : 4 - head.values.length - zeros = tail.values.length - 2 := by omega
      have inside : 4 - head.values.length ≤ (List.replicate zeros (0 : UInt16) ++ tail.values).length := by
        rw [List.length_append, List.length_replicate]
        exact enough
      have front : ∀ later : List UInt16, (head.values ++ later).take 4 =
          head.values.take 4 ++ later.take (4 - head.values.length) := fun later => List.take_append
      rw [shorter.1, shorter.2, behind, List.append_assoc, List.append_assoc, front, front,
        List.append_cancel_left_eq, ← List.append_assoc, List.take_append_of_le_length inside,
        take_replicate_eq_iff enough, moved]
      simp

/-- The part of a group of written hex digits. -/
theorem texts_units (written : Written) {text : List Char} (member : text ∈ written.texts) :
    IsPart (units text) ∧ 46 ∉ units text := by
  obtain ⟨index, bound, rfl⟩ := List.mem_iff_getElem.mp member
  have within : index < written.values.length := by rwa [← written.hextets.length_eq]
  exact isPart_units ((List.forall₂_iff_get.mp written.hextets).2 index bound within)

/-- Whether some groups are all zero, as the script reads them. -/
theorem any_parseHex (written : Written) (n : ℕ) :
    ((written.texts.map units).take n).any (fun group => parseHex group != some 0) = false ↔
      ∀ group ∈ written.values.take n, group = 0 := by
  have all := written.hextets
  generalize written.texts = texts, written.values = values at all
  induction all generalizing n with
  | nil => simp
  | @cons text group texts values hextet _ ih =>
      cases n with
      | zero => simp
      | succ n =>
          have later : ((texts.map units).take n).any (fun group => parseHex group != some 0) = false ↔
              ∀ group ∈ values.take n, group = 0 := ih n
          rw [List.map_cons, List.take_succ_cons, List.take_succ_cons, List.any_cons, Bool.or_eq_false_iff,
            List.forall_mem_cons, later, parseHex_units hextet]
          have zero : (some group.toNat != some 0) = false ↔ group = 0 := by
            rw [bne_eq_false_iff_eq, Option.some_inj, ← UInt16.toNat_zero, UInt16.toNat_inj]
          rw [zero]

/-- **The condition, on the groups behind `::`.** -/
theorem quadShifts_compressed (head tail : Written) :
    quadShifts (units (spell ':' 0 head.parts ++ ':' :: ':' :: spell ':' 0 tail.parts)) = false ↔
      tail.quad = none ∨ ∀ group ∈ tail.values.take (tail.values.length - 2), group = 0 := by
  have plain : ∀ part ∈ tail.texts.map units, ¬ part.contains 46 := by
    intro part member
    obtain ⟨text, inside, rfl⟩ := List.mem_map.mp member
    rw [List.contains_iff_mem]
    exact (texts_units tail inside).2
  have parts : partsOf tail = tail.texts.map units ++ tail.quad.toList.map fun octets =>
      units (quadText octets) := by
    rw [partsOf, Written.parts, List.map_append, List.map_map]
    rfl
  rw [units_compressed, quadShifts, splitColons_compressed (isPart_partsOf head) (isPart_partsOf tail)]
  simp only
  cases quad : tail.quad with
  | none =>
      rw [quad, Option.toList_none, List.map_nil, List.append_nil] at parts
      refine iff_of_true (Bool.and_eq_false_iff.mpr (.inl ?_)) (.inl rfl)
      by_cases none : partsOf tail = []
      · rw [none]
        rfl
      · rw [splitOn_spell (isPart_partsOf tail) none, parts, List.any_eq_false]
        exact plain
  | some octets =>
      rw [quad, Option.toList_some, List.map_singleton] at parts
      have nonempty : partsOf tail ≠ [] := by rw [parts]; simp
      have dot : (partsOf tail).any (·.contains 46) := by
        rw [parts, List.any_append, Bool.or_eq_true]
        refine .inr ?_
        rw [List.any_cons, List.any_nil, Bool.or_false, List.contains_iff_mem]
        exact (isPart_quadText octets).2
      have front : (partsOf tail).take ((partsOf tail).length - 3) =
          (tail.texts.map units).take (tail.values.length - 2) := by
        have length : (partsOf tail).length - 3 = tail.values.length - 2 := by
          rw [parts, List.length_append, List.length_map, tail.hextets.length_eq]
          rfl
        rw [length, parts, List.take_append_of_le_length]
        rw [List.length_map, tail.hextets.length_eq]
        omega
      rw [splitOn_spell (isPart_partsOf tail) nonempty, dot, Bool.true_and, front, any_parseHex]
      simp

theorem quadShifts_plain (written : Written) :
    quadShifts (units (spell ':' 0 written.parts)) = false := by
  rw [units_spell, quadShifts.eq_def]
  have whole := splitColons_plain (isPart_partsOf written)
  rw [partsOf] at whole
  rw [whole]

theorem hexText_injective : Function.Injective hexText := by
  intro n m same
  rw [← (valueOf_toDigits n).1, ← (valueOf_toDigits m).1, String.ofList_injective same]

theorem colon_not_mem_hexText (n : ℕ) : 58 ∉ utf16 (hexText n) := by
  have digits := isSome_hexVal (valueOf_toDigits n).2
  intro colon
  rw [hexText, utf16, String.toList_ofList] at colon
  exact absurd (digits 58 colon) (by decide)

/-- The text of some groups, as units. -/
theorem utf16_network (groups : List UInt16) :
    utf16 (":".intercalate (groups.map fun group => hexText group.toNat)) =
      List.intercalate (utf16 ":") (groups.map fun group => utf16 (hexText group.toNat)) := by
  have colon : encodeUtf16 ':' = [58] := by decide
  have separator : utf16 ":" = [58] := by decide
  have colons : (":" : String).toList = [':'] := by decide
  rw [utf16, String.toList_intercalate, colons, ← spell_zero, flatMap_spell colon, spell_zero, separator,
    List.map_map, List.map_map]
  rfl

/-- Different groups make different texts. -/
theorem intercalate_inj {first second : List UInt16} (some : first ≠ []) (some' : second ≠ [])
    (same : List.intercalate (utf16 ":") (first.map fun group => utf16 (hexText group.toNat)) =
      List.intercalate (utf16 ":") (second.map fun group => utf16 (hexText group.toNat))) :
    first = second := by
  have separator : utf16 ":" = [58] := by decide
  have split : ∀ groups : List UInt16, groups ≠ [] →
      ([58].intercalate (groups.map fun group => utf16 (hexText group.toNat))).splitOn 58 =
        groups.map fun group => utf16 (hexText group.toNat) := by
    intro groups nonempty
    refine List.splitOn_intercalate 58 (fun text member => ?_) fun none => nonempty (List.map_eq_nil_iff.mp none)
    obtain ⟨group, -, rfl⟩ := List.mem_map.mp member
    exact colon_not_mem_hexText group.toNat
  rw [separator] at same
  have parts := congrArg (List.splitOn 58) same
  rw [split first some, split second some'] at parts
  refine List.map_injective_iff.mpr (fun left right equal => ?_) parts
  exact UInt16.toNat_inj.mp (hexText_injective (utf16_injective equal))

theorem ipInput_of_colon {ip : Units} (colon : 58 ∈ ip) :
    ipInput ip = some (List.intercalate (utf16 ":") (ipGroups ip)) := by
  have found : indexOf (utf16 ":") ip ≠ none := by
    obtain ⟨before, after, rfl⟩ := List.append_of_mem colon
    have separator : utf16 ":" = [58] := by decide
    rw [Option.ne_none_iff_isSome, isSome_indexOf, separator]
    exact ⟨before, after, by simp⟩
  rw [ipInput, isDottedQuad_of_colon colon, if_neg found]
  rfl

theorem colon_mem_plain (written : Written) (whole : written.groups.length = 8) :
    58 ∈ units (spell ':' 0 written.parts) := by
  have groups := written.length_groups
  have parts := written.length_parts
  have single := length_quad_le written
  rw [units_spell]
  match split : written.parts with
  | [] | [_] =>
      rw [split] at parts
      simp only [List.length_nil, List.length_singleton] at parts
      omega
  | first :: second :: rest => simp [spell]

/-- **An IPv6 address that the parser accepts.** -/
theorem ipInput_iff_of_spelled {text : List Char} {segments : List UInt16} (spelled : Spelled text segments) :
    ipInput (units text) = some (List.intercalate (utf16 ":")
        ((segments.take 4).map fun group => utf16 (hexText group.toNat))) ↔
      quadShifts (units text) = false := by
  cases spelled with
  | plain written whole same values =>
      subst same values
      rw [ipInput_of_colon (colon_mem_plain written whole), ipGroups_plain_values written whole]
      exact iff_of_true rfl (quadShifts_plain written)
  | compressed head tail hextets fits same values =>
      subst same values
      have colon : 58 ∈ units (spell ':' 0 head.parts ++ ':' :: ':' :: spell ':' 0 tail.parts) := by
        rw [units_compressed]
        simp
      rw [ipInput_of_colon colon, ipGroups_compressed_values head tail hextets fits, Option.some_inj,
        quadShifts_compressed, ← gateGroups_eq_iff hextets fits]
      have gates := length_gateGroups fits
      have own : 4 ≤ (trueGroups head tail).length := by
        simp only [trueGroups, List.length_append, List.length_replicate]
        omega
      have first : ∀ groups : List UInt16, 4 ≤ groups.length → groups.take 4 ≠ [] := by
        intro groups enough
        rw [← List.length_pos_iff, List.length_take]
        omega
      exact ⟨intercalate_inj (first _ gates) (first _ own), fun same => by rw [same]; rfl⟩

/-- **An IPv4 address that the parser accepts.** -/
theorem ipInput_quadText (octets : Vector UInt8 4) :
    ipInput (units (quadText octets)) = some (units (quadText octets)) ∧
      quadShifts (units (quadText octets)) = false := by
  have plain := (isPart_quadText octets).1.2
  refine ⟨by rw [ipInput, if_pos (isDottedQuad_quadText octets)], ?_⟩
  have single := splitColons_append plain []
  rw [List.append_nil] at single
  rw [quadShifts, single]
  rfl

end Agreement

end Gate

/-! ## The tags -/

/-- The gate's tag over a text is the minter's. -/
theorem tag_units (gate : Gate) (secret network : String) :
    (gate.digest (gate.derive (utf16 secret) "vwr/ip/v1") (utf16 network)).take 22 =
      utf16 (String.ofList ((base64url (gate.runtime.hmac (deriveKey gate.runtime.hmac secret "vwr/ip/v1")
        (utf8 network))).take ipTagLen)) := by
  have letters : ∀ bytes : List UInt8, ∀ c ∈ base64url bytes, c.toNat < 0x80 :=
    fun _ _ member => ascii_of_isBase64url (isBase64url_of_mem member)
  rw [Gate.digest, Gate.derive, bytesOf_utf16, bytesOf_utf16, bytesOf_utf16, utf16_ofList,
    flatMap_encodeUtf16_ascii (letters _),
    flatMap_encodeUtf16_ascii fun c member => letters _ c (List.mem_of_mem_take member), List.map_take]
  rfl

/-- **What the gate keys its tag over is the network, exactly where no group is shifted.** -/
theorem ipInput_iff {ip network : String} (accepted : ipNetwork ip = some network) :
    Gate.ipInput (utf16 ip) = some (utf16 network) ↔ Gate.quadShifts (utf16 ip) = false := by
  obtain ⟨address, parsed, shown⟩ := Option.map_eq_some_iff.mp accepted
  have text : utf16 ip = Gate.units ip.toList := rfl
  cases address with
  | v4 octets =>
      have own := quadText_of_parse parsed
      have same : network = ip := by
        have dot : (".".toList : List Char) = ['.'] := by decide
        rw [← shown, ← String.toList_inj, String.toList_intercalate, dot, ← spell_zero, own, quadText,
          List.map_map]
        simp only [Function.comp_def, Nat.toList_repr]
      rw [same, text, own]
      exact iff_of_true (Gate.ipInput_quadText octets).1 (Gate.ipInput_quadText octets).2
  | v6 segments =>
      rw [← shown, Gate.utf16_network, text]
      exact Gate.ipInput_iff_of_spelled (spelled_of_parse parsed)

/-- **The minter and the gate bind a session to the same network, exactly where no group is
shifted.** There they make the same tag of an address, whichever way it is spelled. -/
theorem ip_networks_agree (gate : Gate) (jwt : Jwt) (ip network : String)
    (accepted : ipNetwork ip = some network) :
    (Gate.ipInput (utf16 ip) = some (utf16 network) ↔ Gate.quadShifts (utf16 ip) = false) ∧
      ∀ secret : String,
        let minter := signingKey jwt gate.runtime.hmac ipNetwork secret
        (Gate.quadShifts (utf16 ip) = false → ∃ tag, minter.ipTag ip = some tag ∧
          gate.ipTag (utf16 secret) (utf16 ip) = .string (utf16 tag)) ∧
        ∀ other : String, parseIpAddr other.toList = parseIpAddr ip.toList →
          minter.ipTag other = minter.ipTag ip ∧
            (Gate.quadShifts (utf16 ip) = false → Gate.quadShifts (utf16 other) = false →
              gate.ipTag (utf16 secret) (utf16 other) = gate.ipTag (utf16 secret) (utf16 ip)) := by
  have tagged : ∀ (secret ip network : String), ipNetwork ip = some network →
      Gate.quadShifts (utf16 ip) = false → gate.ipTag (utf16 secret) (utf16 ip) = .string
        ((gate.digest (gate.derive (utf16 secret) "vwr/ip/v1") (utf16 network)).take 22) := by
    intro secret ip network accepted unshifted
    rw [Gate.ipTag_eq, (ipInput_iff accepted).mpr unshifted]
  refine ⟨ipInput_iff accepted, fun secret => ⟨fun unshifted => ?_, fun other spelled => ⟨?_, ?_⟩⟩⟩
  · rw [tagged secret ip network accepted unshifted, tag_units]
    exact ⟨_, congrArg (Option.map _) accepted, rfl⟩
  · have same : ipNetwork other = ipNetwork ip := congrArg (Option.map _) spelled
    exact congrArg (Option.map _) same
  · intro unshifted unshifted'
    have same : ipNetwork other = some network := (congrArg (Option.map _) spelled).trans accepted
    rw [tagged secret ip network accepted unshifted, tagged secret other network same unshifted']

/-- An address with a dotted quad, and the same one in full. -/
theorem ip_networks_agree_sample :
    Gate.ipInput (utf16 "64:FF9B:1::198.51.100.7") = some (utf16 "64:ff9b:1:0") ∧
      Sample.sessionGate.ipTag (utf16 "secret") (utf16 "64:ff9b:1:0:0:0:c633:6407") =
        Sample.sessionGate.ipTag (utf16 "secret") (utf16 "64:FF9B:1::198.51.100.7") := by
  have accepted : ipNetwork "64:FF9B:1::198.51.100.7" = some "64:ff9b:1:0" := by decide +kernel
  have unshifted : Gate.quadShifts (utf16 "64:FF9B:1::198.51.100.7") = false := by decide +kernel
  obtain ⟨input, tags⟩ := ip_networks_agree Sample.sessionGate Sample.jwt _ _ accepted
  exact ⟨input.mpr unshifted, ((tags "secret").2 "64:ff9b:1:0:0:0:c633:6407" (by decide +kernel)).2
    unshifted (by decide +kernel)⟩

/-- **The gate counts a dotted quad once**: the minter's network is `1:0:0:2`, the gate's `1:0:0:0`,
and `1:0:0:2` again where the same address is written in full. -/
theorem gate_counts_a_quad_once :
    ipNetwork "1::2:3:4:198.51.100.7" = some "1:0:0:2" ∧
      Gate.ipInput (utf16 "1::2:3:4:198.51.100.7") = some (utf16 "1:0:0:0") ∧
      parseIpAddr "1:0:0:2:3:4:198.51.100.7".toList = parseIpAddr "1::2:3:4:198.51.100.7".toList ∧
      Gate.ipInput (utf16 "1:0:0:2:3:4:198.51.100.7") = some (utf16 "1:0:0:2") := by
  decide +kernel

end WaitingRoom.Edge
