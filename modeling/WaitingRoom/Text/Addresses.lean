import Mathlib.Data.List.Forall2
import Mathlib.Data.List.Induction
import Mathlib.Data.List.TakeWhile
import Mathlib.Data.Option.Basic
import Mathlib.Tactic.IntervalCases

/-!
# IP addresses

The standard library's parser of an IP address, and the texts it accepts. An IPv4 address is its
own dotted decimal (`quad_text`). An IPv6 address is eight groups of one to four hex digits, of
which the last two may be written as a dotted quad and one run of zero groups as `::`
(`spelled_of_parse`).
-/

set_option autoImplicit false

namespace WaitingRoom.Text

/-- An address. -/
inductive IpAddr where
  | v4 (octets : Vector UInt8 4)
  | v6 (segments : Vector UInt16 8)
  deriving DecidableEq

/-! ## The parser -/

/-- A parser reads from the front of a text, or leaves it as it is. -/
abbrev Reader (α : Type) := List Char → Option (α × List Char)

/-- `to_digit`. -/
def toDigit (radix : ℕ) (c : Char) : Option ℕ :=
  let value :=
    if '0' ≤ c ∧ c ≤ '9' then some (c.toNat - 48)
    else if 'A' ≤ c ∧ c ≤ 'Z' then some (c.toNat - 55)
    else if 'a' ≤ c ∧ c ≤ 'z' then some (c.toNat - 87)
    else none
  value.filter (· < radix)

/-- The number that digits are. -/
def valueOf (radix : ℕ) (digits : List Char) : ℕ :=
  digits.foldl (fun value c => value * radix + (toDigit radix c).getD 0) 0

/-- Read a number of at most so many digits, below a bound. -/
def readNumber (radix maxDigits bound : ℕ) (allowZeroPrefix : Bool) : Reader ℕ := fun text =>
  let isDigit c := (toDigit radix c).isSome
  let digits := text.takeWhile isDigit
  if maxDigits < digits.length ∨ digits = [] then none
  else if !allowZeroPrefix && digits.head? = some '0' && 1 < digits.length then none
  else if valueOf radix digits < bound then some (valueOf radix digits, text.dropWhile isDigit)
  else none

/-- Read a separator, unless at the first index, and then what follows it. -/
def readSeparator {α : Type} (separator : Char) (index : ℕ) (inner : Reader α) : Reader α := fun text =>
  if index = 0 then inner text
  else
    match text with
    | c :: rest => if c = separator then inner rest else none
    | [] => none

/-- One number of an IPv4 address. -/
def readOctet (index : ℕ) : Reader UInt8 := fun text =>
  (readSeparator '.' index (readNumber 10 3 256 false) text).map fun (n, rest) => (.ofNat n, rest)

/-- One group of an IPv6 address. -/
def readGroup (index : ℕ) : Reader UInt16 := fun text =>
  (readSeparator ':' index (readNumber 16 4 65536 true) text).map fun (n, rest) => (.ofNat n, rest)

/-- Read an IPv4 address. -/
def readIpv4Addr : Reader (Vector UInt8 4) := fun text => do
  let (one, text) ← readOctet 0 text
  let (two, text) ← readOctet 1 text
  let (three, text) ← readOctet 2 text
  let (four, text) ← readOctet 3 text
  return (#v[one, two, three, four], text)

/-- The two groups of an IPv4 address. -/
def quadGroups (octets : Vector UInt8 4) : List UInt16 :=
  [.ofNat (octets[0].toNat * 256 + octets[1].toNat), .ofNat (octets[2].toNat * 256 + octets[3].toNat)]

/-- Read groups into the slots that are left, the last two perhaps an IPv4 address: the groups,
whether they end in one, and the rest. -/
def readGroups : (slots index : ℕ) → List Char → List UInt16 × Bool × List Char
  | 0, _, text => ([], false, text)
  | slots + 1, index, text =>
      match if 0 < slots then readSeparator ':' index readIpv4Addr text else none with
      | some (octets, rest) => (quadGroups octets, true, rest)
      | none =>
          match readGroup index text with
          | some (group, rest) =>
              let (groups, ipv4, rest) := readGroups slots (index + 1) rest
              (group :: groups, ipv4, rest)
          | none => ([], false, text)

/-- Eight groups: those read before `::`, zeros, and those read after it. -/
def joinGroups (head tail : List UInt16) : Vector UInt16 8 :=
  let groups := head ++ List.replicate (8 - head.length - tail.length) 0 ++ tail
  Vector.ofFn fun i => groups.getD i 0

/-- Read an IPv6 address. -/
def readIpv6Addr : Reader (Vector UInt16 8) := fun text =>
  let (head, headIpv4, rest) := readGroups 8 0 text
  if head.length = 8 then some (joinGroups head [], rest)
  else if headIpv4 then none
  else
    match rest with
    | ':' :: ':' :: rest =>
        let (tail, _, rest) := readGroups (8 - (head.length + 1)) 0 rest
        some (joinGroups head tail, rest)
    | _ => none

/-- Read an address. -/
def readIpAddr : Reader IpAddr := fun text =>
  match readIpv4Addr text with
  | some (octets, rest) => some (.v4 octets, rest)
  | none => (readIpv6Addr text).map fun (segments, rest) => (.v6 segments, rest)

/-- Parse an address that is the whole text. -/
def parseIpAddr (text : List Char) : Option IpAddr :=
  match readIpAddr text with
  | some (address, []) => some address
  | _ => none

example : (parseIpAddr "2001:DB8::198.51.100.7".toList).isSome ∧
    parseIpAddr "1::2::3".toList = none ∧ parseIpAddr "198.51.100.07".toList = none := by
  decide +kernel

/-! ## The texts it accepts -/

/-- Parts of an address, each but the first behind a separator. -/
def spell {α : Type} (separator : α) : ℕ → List (List α) → List α
  | _, [] => []
  | 0, part :: parts => part ++ spell separator 1 parts
  | index + 1, part :: parts => separator :: part ++ spell separator (index + 2) parts

section Spell

variable {α β : Type}

/-- A part behind its separator, and the parts after it. -/
theorem spell_cons (separator : α) (index : ℕ) (part : List α) (parts : List (List α)) :
    spell separator index (part :: parts) =
      (if index = 0 then part else separator :: part) ++ spell separator (index + 1) parts := by
  cases index <;> rfl

theorem spell_succ (separator : α) (index : ℕ) (parts : List (List α)) :
    spell separator (index + 1) parts = parts.flatMap (separator :: ·) := by
  induction parts generalizing index with
  | nil => rfl
  | cons part parts ih =>
      rw [spell_cons, if_neg (Nat.succ_ne_zero index), ih, List.flatMap_cons]

/-- The parts of an address are joined by the separator. -/
theorem spell_zero (separator : α) (parts : List (List α)) :
    spell separator 0 parts = [separator].intercalate parts := by
  cases parts with
  | nil => rfl
  | cons part parts =>
      rw [spell_cons, if_pos rfl, spell_succ]
      induction parts generalizing part with
      | nil => simp
      | cons next parts ih =>
          rw [List.flatMap_cons, List.intercalate_cons_cons, ← ih next]
          simp

theorem flatMap_spell {encode : α → List β} {separator : α} {separator' : β}
    (encodes : encode separator = [separator']) (index : ℕ) (parts : List (List α)) :
    (spell separator index parts).flatMap encode =
      spell separator' index (parts.map (List.flatMap encode)) := by
  induction parts generalizing index with
  | nil => cases index <;> rfl
  | cons part parts ih =>
      rw [List.map_cons, spell_cons, spell_cons, List.flatMap_append, ih]
      split_ifs
      · rfl
      · rw [List.flatMap_cons, encodes, List.singleton_append]

theorem mem_spell {separator a : α} {index : ℕ} {parts : List (List α)}
    (member : a ∈ spell separator index parts) : a = separator ∨ ∃ part ∈ parts, a ∈ part := by
  induction parts generalizing index with
  | nil => cases index <;> cases member
  | cons part parts ih =>
      rw [spell_cons, List.mem_append] at member
      rcases member with first | later
      · split_ifs at first
        · exact .inr ⟨part, List.mem_cons_self, first⟩
        · rcases List.mem_cons.mp first with rfl | inside
          · exact .inl rfl
          · exact .inr ⟨part, List.mem_cons_self, inside⟩
      · exact (ih later).imp_right fun ⟨other, member, inside⟩ =>
          ⟨other, List.mem_cons_of_mem _ member, inside⟩

end Spell

/-- The digits of a number. -/
structure Digits (radix maxDigits bound : ℕ) (text : List Char) (n : ℕ) : Prop where
  some : text ≠ []
  few : text.length ≤ maxDigits
  digits : ∀ c ∈ text, (toDigit radix c).isSome
  value : valueOf radix text = n
  small : n < bound

/-- A group of an IPv6 address. -/
def Hextet (text : List Char) (group : UInt16) : Prop := Digits 16 4 65536 text group.toNat

/-- An IPv4 address in dotted decimal. -/
def quadText (octets : Vector UInt8 4) : List Char :=
  spell '.' 0 (octets.toList.map fun octet => Nat.toDigits 10 octet.toNat)

section Numbers

variable {radix maxDigits bound n : ℕ} {allowZeroPrefix : Bool} {text rest : List Char}

/-- What a number is read from. -/
theorem digits_of_readNumber
    (read : readNumber radix maxDigits bound allowZeroPrefix text = some (n, rest)) :
    ∃ digits, text = digits ++ rest ∧ Digits radix maxDigits bound digits n ∧
      (allowZeroPrefix = false → digits.head? = some '0' → digits.length = 1) := by
  simp only [readNumber] at read
  split_ifs at read with length leading small
  obtain ⟨rfl, rfl⟩ := Prod.mk.inj (Option.some.inj read)
  obtain ⟨few, some⟩ := not_or.mp length
  refine ⟨_, List.takeWhile_append_dropWhile.symm, ⟨some, Nat.le_of_not_lt few,
    fun c member => List.mem_takeWhile_imp (p := fun c => (toDigit radix c).isSome) member, rfl,
    small⟩, fun strict zero => ?_⟩
  have short : ¬ 1 < (text.takeWhile fun c => (toDigit radix c).isSome).length := by
    simpa [strict, zero] using leading
  have positive := List.length_pos_iff.mpr some
  omega

/-- A decimal digit is the digit of its value. -/
theorem digitChar_of_toDigit {c : Char} {n : ℕ} (digit : toDigit 10 c = some n) :
    n < 10 ∧ n.digitChar = c := by
  obtain ⟨read, small⟩ := Option.filter_eq_some_iff.mp digit
  have below : n < 10 := of_decide_eq_true small
  have code : c.toNat = 48 + n := by
    split_ifs at read with decimal upper lower
    · have least : 48 ≤ c.toNat := decimal.1
      have value := Option.some.inj read
      omega
    · have least : 65 ≤ c.toNat := upper.1
      have value := Option.some.inj read
      omega
    · have least : 97 ≤ c.toNat := lower.1
      have value := Option.some.inj read
      omega
  refine ⟨below, ?_⟩
  rw [← Char.ofNat_toNat c, code]
  interval_cases n <;> rfl

theorem valueOf_append (init : List Char) (c : Char) :
    valueOf radix (init ++ [c]) = valueOf radix init * radix + (toDigit radix c).getD 0 := by
  rw [valueOf, List.foldl_append]
  rfl

/-- **Decimal digits without a leading zero are the number's own.** -/
theorem toDigits_valueOf (nonempty : text ≠ []) (digits : ∀ c ∈ text, (toDigit 10 c).isSome)
    (strict : text.head? = some '0' → text.length = 1) : Nat.toDigits 10 (valueOf 10 text) = text := by
  induction text using List.reverseRecOn with
  | nil => exact absurd rfl nonempty
  | append_singleton init c ih =>
      obtain ⟨digit, found⟩ := Option.isSome_iff_exists.mp (digits c (by simp))
      obtain ⟨below, char⟩ := digitChar_of_toDigit found
      rw [valueOf_append, found, Option.getD_some]
      by_cases empty : init = []
      · subst empty
        rw [valueOf, List.foldl_nil, Nat.zero_mul, Nat.zero_add, Nat.toDigits_of_lt_base below, char]
        rfl
      have nonzero : init.head? ≠ some '0' := by
        intro zero
        have single := strict (by rw [List.head?_append, zero, Option.some_or])
        rw [List.length_append, List.length_singleton, Nat.add_eq_right, List.length_eq_zero_iff] at single
        exact empty single
      have own := ih empty (fun c member => digits c (List.mem_append_left _ member))
        fun zero => absurd zero nonzero
      have positive : 0 < valueOf 10 init := by
        rw [Nat.pos_iff_ne_zero]
        intro zero
        rw [zero, Nat.toDigits_zero] at own
        exact nonzero (by rw [← own]; rfl)
      rw [Nat.mul_comm, ← Nat.toDigits_append_toDigits (by decide) positive below, own,
        Nat.toDigits_of_lt_base below, char]

/-- A number is the value of its own hex digits. -/
theorem valueOf_toDigits (n : ℕ) :
    valueOf 16 (Nat.toDigits 16 n) = n ∧ ∀ c ∈ Nat.toDigits 16 n, (toDigit 16 c).isSome := by
  have digit : ∀ d < 16, toDigit 16 d.digitChar = some d := by decide
  induction n using Nat.strongRecOn with
  | ind n ih =>
      rw [Nat.toDigits_eq_if (by decide)]
      split_ifs with small
      · have read := digit n small
        exact ⟨by simp [valueOf, read], by simp [read]⟩
      · have read := digit (n % 16) (Nat.mod_lt n (by decide))
        obtain ⟨value, digits⟩ := ih (n / 16) (Nat.div_lt_self (by omega) (by decide))
        refine ⟨?_, fun c member => ?_⟩
        · rw [valueOf_append, value, read, Option.getD_some]
          exact Nat.div_add_mod' n 16
        · rcases List.mem_append.mp member with front | last
          · exact digits c front
          · rw [List.mem_singleton.mp last, read]
            rfl

end Numbers

section Readers

variable {α : Type} {separator : Char} {index : ℕ} {inner : Reader α} {text rest : List Char} {a : α}

/-- What is read behind a separator. -/
theorem readSeparator_eq_some (read : readSeparator separator index inner text = some (a, rest)) :
    ∃ body, inner body = some (a, rest) ∧
      text = if index = 0 then body else separator :: body := by
  rw [readSeparator.eq_def] at read
  by_cases first : index = 0
  · rw [if_pos first] at read
    exact ⟨text, read, (if_pos first).symm⟩
  · rw [if_neg first] at read
    cases text with
    | nil => cases read
    | cons c body =>
        simp only at read
        split_ifs at read with same
        exact ⟨body, read, by rw [if_neg first, same]⟩

theorem readOctet_eq_some {octet : UInt8} (read : readOctet index text = some (octet, rest)) :
    text = (if index = 0 then Nat.toDigits 10 octet.toNat
      else '.' :: Nat.toDigits 10 octet.toNat) ++ rest := by
  obtain ⟨⟨n, left⟩, number, same⟩ := Option.map_eq_some_iff.mp read
  obtain ⟨rfl, rfl⟩ := Prod.mk.inj same
  obtain ⟨body, inner, rfl⟩ := readSeparator_eq_some number
  obtain ⟨digits, rfl, spelled, strict⟩ := digits_of_readNumber inner
  have own := toDigits_valueOf spelled.some spelled.digits (strict rfl)
  rw [spelled.value] at own
  have whole : (UInt8.ofNat n).toNat = n := by
    rw [UInt8.toNat_ofNat']
    exact Nat.mod_eq_of_lt spelled.small
  rw [whole, own]
  split_ifs <;> rfl

/-- **An IPv4 address is read from its own dotted decimal.** -/
theorem readIpv4Addr_eq_some {octets : Vector UInt8 4} (read : readIpv4Addr text = some (octets, rest)) :
    text = quadText octets ++ rest := by
  obtain ⟨⟨one, second⟩, first, read⟩ := Option.bind_eq_some_iff.mp read
  obtain ⟨⟨two, third⟩, followed, read⟩ := Option.bind_eq_some_iff.mp read
  obtain ⟨⟨three, fourth⟩, followed', read⟩ := Option.bind_eq_some_iff.mp read
  obtain ⟨⟨four, last⟩, followed'', read⟩ := Option.bind_eq_some_iff.mp read
  obtain ⟨rfl, rfl⟩ := Prod.mk.inj (Option.some.inj read)
  rw [readOctet_eq_some first, readOctet_eq_some followed, readOctet_eq_some followed',
    readOctet_eq_some followed'']
  simp [quadText, spell]

theorem readGroup_eq_some {group : UInt16} (read : readGroup index text = some (group, rest)) :
    ∃ digits, Hextet digits group ∧
      text = (if index = 0 then digits else ':' :: digits) ++ rest := by
  obtain ⟨⟨n, left⟩, number, same⟩ := Option.map_eq_some_iff.mp read
  obtain ⟨rfl, rfl⟩ := Prod.mk.inj same
  obtain ⟨body, inner, rfl⟩ := readSeparator_eq_some number
  obtain ⟨digits, rfl, spelled, -⟩ := digits_of_readNumber inner
  have whole : (UInt16.ofNat n).toNat = n := by
    rw [UInt16.toNat_ofNat']
    exact Nat.mod_eq_of_lt spelled.small
  refine ⟨digits, by rw [Hextet, whole]; exact spelled, ?_⟩
  split_ifs <;> rfl

end Readers

/-! ## Groups as they are written -/

/-- Groups in hex digits, and perhaps a dotted quad for two more. -/
structure Written where
  texts : List (List Char)
  values : List UInt16
  hextets : List.Forall₂ Hextet texts values
  quad : Option (Vector UInt8 4)

namespace Written

/-- The parts they are written in. -/
def parts (written : Written) : List (List Char) :=
  written.texts ++ written.quad.toList.map quadText

/-- What they are. -/
def groups (written : Written) : List UInt16 :=
  written.values ++ written.quad.toList.flatMap quadGroups

theorem length_groups (written : Written) :
    written.groups.length = written.values.length + 2 * written.quad.toList.length := by
  rw [groups, List.length_append]
  cases written.quad <;> rfl

theorem length_parts (written : Written) :
    written.parts.length = written.values.length + written.quad.toList.length := by
  rw [parts, List.length_append, List.length_map, written.hextets.length_eq]

/-- One more group in front. -/
def cons {text : List Char} {value : UInt16} (hextet : Hextet text value) (written : Written) :
    Written where
  texts := text :: written.texts
  values := value :: written.values
  hextets := .cons hextet written.hextets
  quad := written.quad

/-- No groups. -/
def empty : Written := ⟨[], [], .nil, none⟩

/-- A dotted quad alone. -/
def ofQuad (octets : Vector UInt8 4) : Written := ⟨[], [], .nil, some octets⟩

end Written

/-- **What groups are read from.** -/
theorem readGroups_spec (slots index : ℕ) (text : List Char) :
    ∃ written : Written, text = spell ':' index written.parts ++ (readGroups slots index text).2.2 ∧
      (readGroups slots index text).1 = written.groups ∧
        (readGroups slots index text).2.1 = written.quad.isSome ∧ written.groups.length ≤ slots := by
  induction slots generalizing index text with
  | zero => exact ⟨.empty, rfl, rfl, rfl, Nat.le_refl 0⟩
  | succ slots ih =>
      rw [readGroups]
      split
      · rename_i octets rest read
        split_ifs at read with room
        obtain ⟨body, inner, rfl⟩ := readSeparator_eq_some read
        refine ⟨.ofQuad octets, ?_, rfl, rfl, Nat.succ_le_succ room⟩
        rw [readIpv4Addr_eq_some inner]
        change _ = spell ':' index [quadText octets] ++ rest
        rw [spell_cons]
        split_ifs <;> simp [spell]
      · split
        · rename_i group rest read
          obtain ⟨digits, hextet, rfl⟩ := readGroup_eq_some read
          obtain ⟨written, spelled, groups, ipv4, few⟩ := ih (index + 1) rest
          refine ⟨.cons hextet written, ?_, ?_, ipv4, Nat.succ_le_succ few⟩
          · change _ = spell ':' index (digits :: written.parts) ++ _
            rw [spell_cons, List.append_assoc, ← spelled]
          · exact congrArg (group :: ·) groups
        · exact ⟨.empty, rfl, rfl, rfl, Nat.zero_le _⟩

theorem joinGroups_toList {head tail : List UInt16} (fits : head.length + tail.length ≤ 8) :
    (joinGroups head tail).toList =
      head ++ List.replicate (8 - head.length - tail.length) 0 ++ tail := by
  have length : (head ++ List.replicate (8 - head.length - tail.length) 0 ++ tail).length = 8 := by
    simp only [List.length_append, List.length_replicate]
    omega
  refine List.ext_getElem (by rw [length, Vector.length_toList]) fun i inside inside' => ?_
  simp only [joinGroups, Vector.getElem_toList, Vector.getElem_ofFn]
  exact (List.getElem_eq_getD 0).symm

/-- How the groups of an address are written: all eight, or with `::` for those that are zero. -/
inductive Spelled (text : List Char) (segments : List UInt16) : Prop where
  | plain (written : Written) (whole : written.groups.length = 8)
      (text : text = spell ':' 0 written.parts) (segments : segments = written.groups)
  | compressed (head tail : Written) (hextets : head.quad = none)
      (fits : head.groups.length + tail.groups.length ≤ 7)
      (text : text = spell ':' 0 head.parts ++ ':' :: ':' :: spell ':' 0 tail.parts)
      (segments : segments = head.groups ++
        List.replicate (8 - head.groups.length - tail.groups.length) 0 ++ tail.groups)

theorem spelled_of_read {text : List Char} {segments : Vector UInt16 8}
    (read : readIpv6Addr text = some (segments, [])) : Spelled text segments.toList := by
  obtain ⟨head, spelled, groups, ipv4, few⟩ := readGroups_spec 8 0 text
  simp only [readIpv6Addr] at read
  split_ifs at read with whole mapped
  · obtain ⟨rfl, rest⟩ := Prod.mk.inj (Option.some.inj read)
    rw [groups] at whole
    rw [groups, joinGroups_toList (by simp [whole])]
    exact .plain head whole (by rw [spelled, rest, List.append_nil]) (by simp [whole])
  · split at read
    · rename_i left after
      obtain ⟨rfl, rest⟩ := Prod.mk.inj (Option.some.inj read)
      obtain ⟨tail, spelled', groups', -, few'⟩ :=
        readGroups_spec (8 - ((readGroups 8 0 text).1.length + 1)) 0 left
      have hextets : head.quad = none := by simpa [ipv4] using mapped
      rw [rest, List.append_nil] at spelled'
      rw [groups', groups] at *
      rw [joinGroups_toList (by omega)]
      exact .compressed head tail hextets (by omega) (by rw [spelled, after, spelled']) rfl
    · cases read

/-- **An IPv6 address is parsed from its groups.** -/
theorem spelled_of_parse {text : List Char} {segments : Vector UInt16 8}
    (parsed : parseIpAddr text = some (.v6 segments)) : Spelled text segments.toList := by
  rw [parseIpAddr.eq_def] at parsed
  split at parsed
  · rename_i address read
    obtain rfl := Option.some.inj parsed
    rw [readIpAddr] at read
    split at read
    · cases (Prod.mk.inj (Option.some.inj read)).1
    · obtain ⟨⟨found, rest⟩, address, pair⟩ := Option.map_eq_some_iff.mp read
      obtain ⟨same, rfl⟩ := Prod.mk.inj pair
      obtain rfl := IpAddr.v6.inj same
      exact spelled_of_read address
  · cases parsed

/-- **An IPv4 address is parsed from its own dotted decimal.** -/
theorem quadText_of_parse {text : List Char} {octets : Vector UInt8 4}
    (parsed : parseIpAddr text = some (.v4 octets)) : text = quadText octets := by
  rw [parseIpAddr.eq_def] at parsed
  split at parsed
  · rename_i address read
    obtain rfl := Option.some.inj parsed
    rw [readIpAddr] at read
    split at read
    · rename_i found rest quad
      obtain ⟨same, rfl⟩ := Prod.mk.inj (Option.some.inj read)
      obtain rfl := IpAddr.v4.inj same
      rw [readIpv4Addr_eq_some quad, List.append_nil]
    · obtain ⟨_, -, same⟩ := Option.map_eq_some_iff.mp read
      cases (Prod.mk.inj same).1
  · cases parsed

end WaitingRoom.Text
