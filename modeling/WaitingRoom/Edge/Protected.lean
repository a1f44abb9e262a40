import WaitingRoom.Edge.Headroom
import WaitingRoom.Edge.Paths
import WaitingRoom.Edge.RuleForm

/-!
# What a path rule protects

A request's path is normalized before a rule is matched, and the rule's own prefix is only folded. An
accepted rule protects every path that starts with its prefix exactly when the prefix survives
normalization: it has no empty and no dot segment, and no percent sign that begins an escape or that
a continuation can make begin one (`path_rule_protects_iff`). A prefix with two slashes in a row is
read and accepted, and the rule does not match the path it names (`doubled_slash_unprotected`).
-/

set_option autoImplicit false

namespace WaitingRoom.Edge

open Text

/-! ## Prefixes that survive -/

/-- A hex digit. -/
def isHexChar (c : Char) : Bool :=
  ('0' ≤ c ∧ c ≤ '9') ∨ ('A' ≤ c ∧ c ≤ 'F') ∨ ('a' ≤ c ∧ c ≤ 'f')

/-- A prefix that normalization leaves alone, whatever follows it. -/
structure Survives (p : List Char) : Prop where
  noDouble : ¬ ['/', '/'] <:+: p
  noDot : ¬ ['/', '.', '/'] <:+: p
  noDotEnd : ¬ ['/', '.'] <:+ p
  /-- One of the two characters behind a percent sign is there and is no hex digit. -/
  noEscape : ∀ after, '%' :: after <:+ p → ∃ c ∈ after.take 2, ¬ isHexChar c

/-! ## ASCII -/

/-- The byte of an ASCII character. -/
def byteOf (c : Char) : UInt8 := .ofNat c.toNat

theorem utf8_append (front back : List Char) :
    utf8 (String.ofList (front ++ back)) = utf8 (String.ofList front) ++ utf8 (String.ofList back) := by
  rw [utf8, utf8, utf8, String.toList_ofList, String.toList_ofList, String.toList_ofList,
    List.flatMap_append]

theorem flatMap_encode {p : List Char} (ascii : ∀ c ∈ p, c.toNat < 0x80) :
    p.flatMap String.utf8EncodeChar = p.map byteOf := by
  induction p with
  | nil => rfl
  | cons c p ih =>
      have plain := ascii c List.mem_cons_self
      have byte : String.utf8EncodeChar c = [byteOf c] := if_pos (Nat.le_of_lt_succ plain)
      rw [List.flatMap_cons, byte, ih fun c member => ascii c (List.mem_cons_of_mem _ member)]
      rfl

/-- A character with the byte of a given ASCII character is that character. -/
theorem byteOf_eq {c d : Char} (ascii : c.toNat < 0x80) (ascii' : d.toNat < 0x80)
    (same : byteOf c = byteOf d) : c = d := by
  have codes := congrArg UInt8.toNat same
  rw [byteOf, byteOf, toNat_byte (by omega), toNat_byte (by omega)] at codes
  exact toNat_char_injective codes

theorem isHex_byteOf {c : Char} (ascii : c.toNat < 0x80) : isHex (byteOf c) ↔ isHexChar c := by
  have every : ∀ n < 0x80, isHex (byteOf (Char.ofNat n)) ↔ isHexChar (Char.ofNat n) = true := by
    decide +kernel
  have here := every c.toNat ascii
  rwa [Char.ofNat_toNat] at here

/-- A text that folds to a text without letters is that text. -/
theorem eq_of_map_toLower {folded : List Char} (plain : ∀ c ∈ folded, c.toNat < 65) {text : List Char}
    (same : text.map Char.toLower = folded) : text = folded := by
  induction folded generalizing text with
  | nil => exact List.map_eq_nil_iff.mp same
  | cons d folded ih =>
      obtain ⟨c, rest, rfl, first, later⟩ := List.map_eq_cons_iff.mp same
      have code := congrArg Char.toNat first
      have small := plain d List.mem_cons_self
      rw [toNat_toLower, lowerCode] at code
      have here : c = d := by
        apply toNat_char_injective
        split_ifs at code <;> omega
      rw [here, ih (fun c member => plain c (List.mem_cons_of_mem _ member)) later]

/-! ## What survives is kept -/

/-- No percent sign of the bytes begins an escape, whatever follows them. -/
def Unescaped (bytes : List UInt8) : Prop :=
  ∀ before after, bytes = before ++ 37 :: after → ∃ b ∈ after.take 2, ¬ isHex b

theorem percentDecode_unescaped {bytes : List UInt8} (unescaped : Unescaped bytes)
    (rest : List UInt8) : percentDecode (bytes ++ rest) = bytes ++ percentDecode rest := by
  induction bytes with
  | nil => rfl
  | cons b bytes ih =>
      have plain : ¬ EscapeAhead (b :: bytes ++ rest) := by
        rintro ⟨hi, lo, back, split, isHi, isLo⟩
        rw [List.cons_append, List.cons.injEq] at split
        obtain ⟨rfl, split⟩ := split
        obtain ⟨other, member, noHex⟩ := unescaped [] bytes rfl
        have ahead : other ∈ [hi, lo] := by
          have first : other ∈ (bytes ++ rest).take 2 := by
            rw [List.take_append]
            exact List.mem_append_left _ member
          rwa [split] at first
        rcases List.mem_pair.mp ahead with rfl | rfl
        · exact noHex isHi
        · exact noHex isLo
      have later : Unescaped bytes := fun before after split =>
        unescaped (b :: before) after (congrArg (b :: ·) split)
      rw [List.cons_append] at plain ⊢
      rw [percentDecode_cons plain, ih later, List.cons_append]

theorem Survives.unescaped {p : List Char} (survives : Survives p)
    (ascii : ∀ c ∈ p, c.toNat < 0x80) : Unescaped (p.map byteOf) := by
  intro before after split
  obtain ⟨front, back, rfl, -, behind⟩ := List.map_eq_append_iff.mp split
  obtain ⟨c, back, rfl, byte, rfl⟩ := List.map_eq_cons_iff.mp behind
  have plain : ∀ c ∈ back, c.toNat < 0x80 := fun c member =>
    ascii c (List.mem_append_right _ (List.mem_cons_of_mem _ member))
  obtain rfl : c = '%' :=
    byteOf_eq (ascii c (List.mem_append_right _ List.mem_cons_self)) (by decide) byte
  obtain ⟨other, member, noHex⟩ := survives.noEscape back ⟨front, rfl⟩
  rw [← List.map_take]
  exact ⟨_, List.mem_map_of_mem member,
    fun hex => noHex ((isHex_byteOf (plain other (List.mem_of_mem_take member))).mp hex)⟩

theorem Survives.tidied {p : List Char} (survives : Survives p) :
    Tidied '/' '.' (p.map Char.toLower) where
  noDouble before after split := by
    have inside : ['/', '/'] <:+: p.map Char.toLower := ⟨before, after, by rw [split]; simp⟩
    obtain ⟨part, here, folded⟩ := List.infix_map_iff.mp inside
    rw [eq_of_map_toLower (forall_mem_of_all (by decide)) folded.symm] at here
    exact survives.noDouble here
  noDot before after split := by
    have inside : ['/', '.', '/'] <:+: p.map Char.toLower := ⟨before, after, by rw [split]; simp⟩
    obtain ⟨part, here, folded⟩ := List.infix_map_iff.mp inside
    rw [eq_of_map_toLower (forall_mem_of_all (by decide)) folded.symm] at here
    exact survives.noDot here

/-- **A prefix that survives starts every normalized continuation of it.** -/
theorem Survives.prefix_normalizedPath {p : List Char} (survives : Survives p)
    (ascii : ∀ c ∈ p, c.toNat < 0x80) (absolute : p.head? = some '/') (rest : List Char) :
    p.map Char.toLower <+: normalizedPath (String.ofList (p ++ rest)) := by
  have decoded : decodedBytes (utf8 (String.ofList (p ++ rest)))
      = p ++ decodedBytes (utf8 (String.ofList rest)) := by
    rw [utf8_append, utf8, String.toList_ofList, flatMap_encode ascii, decodedBytes,
      percentDecode_unescaped (survives.unescaped ascii), ← flatMap_encode ascii,
      fromUtf8Lossy_append, decodedBytes]
  have ends : ¬ ['/', '.'] <:+ p.map Char.toLower := by
    intro dotted
    obtain ⟨part, here, folded⟩ := List.suffix_map_iff.mp dotted
    rw [eq_of_map_toLower (forall_mem_of_all (by decide)) folded.symm] at here
    exact survives.noDotEnd here
  have separated : '/' ∈ p.map Char.toLower :=
    List.mem_map_of_mem (List.mem_of_mem_head? absolute)
  rw [normalizedPath_bytes, normalizedBytes_folded, decoded, List.map_append, segmentsOnly]
  exact prefix_segmentForm survives.tidied ends separated _

/-! ## What does not survive is lost -/

theorem length_decodedBytes_le (bytes : List UInt8) :
    (decodedBytes bytes).length ≤ (percentDecode bytes).length :=
  length_fromUtf8Lossy_le (percentDecode bytes)

theorem length_normalizedBytes_le_decoded (bytes : List UInt8) :
    (normalizedBytes bytes).length ≤ (decodedBytes bytes).length := by
  rw [normalizedBytes_eq, List.length_map]
  exact (segmentForm_sublist (by decide) (decodedBytes bytes)).length_le

/-- Normalization makes no path longer. -/
theorem length_normalizedBytes_le (bytes : List UInt8) :
    (normalizedBytes bytes).length ≤ bytes.length :=
  (length_normalizedBytes_le_decoded bytes).trans
    ((length_decodedBytes_le bytes).trans (length_percentDecode_le bytes))

/-- No escape that begins earlier takes a percent sign in. -/
theorem percentDecode_append_percent (before after : List UInt8) :
    percentDecode (before ++ 37 :: after) = percentDecode before ++ percentDecode (37 :: after) :=
  percentDecode_append fun straddles => absurd (isHex_of_straddles straddles) (by decide)

/-- An escape makes a normalized path at least two letters shorter. -/
theorem length_normalizedBytes_escape {hi lo : UInt8} (isHi : isHex hi) (isLo : isHex lo)
    (before after : List UInt8) :
    (normalizedBytes (before ++ 37 :: hi :: lo :: after)).length
      ≤ before.length + 1 + after.length := by
  obtain ⟨high, isHigh⟩ := Option.isSome_iff_exists.mp isHi
  obtain ⟨low, isLow⟩ := Option.isSome_iff_exists.mp isLo
  have whole := (length_normalizedBytes_le_decoded (before ++ 37 :: hi :: lo :: after)).trans
    (length_decodedBytes_le _)
  rw [percentDecode_append_percent, percentDecode_escape' isHigh isLow, List.length_append,
    List.length_cons] at whole
  have front := length_percentDecode_le before
  have back := length_percentDecode_le after
  omega

/-- The bytes after a prefix, and whether the folded prefix starts what they are normalized to. -/
def KeepsPrefix (p tail : List Char) : Prop :=
  p.map Char.toLower <+: normalizedBytes ((p ++ tail).map byteOf)

theorem KeepsPrefix.length_le {p tail : List Char} (keeps : KeepsPrefix p tail) :
    p.length ≤ (normalizedBytes ((p ++ tail).map byteOf)).length := by
  have shorter := List.IsPrefix.length_le keeps
  rwa [List.length_map] at shorter

/-- A percent sign at the end may become a letter. -/
theorem not_keepsPrefix_percent (before : List Char) : ¬ KeepsPrefix (before ++ ['%']) ['4', '1'] := by
  intro keeps
  have bytes : (before ++ ['%'] ++ ['4', '1']).map byteOf = before.map byteOf ++ [37, 52, 49] := by
    rw [List.append_assoc, List.map_append]
    rfl
  have decoded : decodedBytes (before.map byteOf ++ [37, 52, 49])
      = decodedBytes (before.map byteOf) ++ ['A'] := by
    rw [decodedBytes, percentDecode_append_percent,
      show percentDecode [37, 52, 49] = 65 :: [] by decide, fromUtf8Lossy_append_ascii (by decide)]
    rfl
  have short : (decodedBytes (before.map byteOf)).length ≤ before.length := by
    have shorter := (length_decodedBytes_le (before.map byteOf)).trans (length_percentDecode_le _)
    rwa [List.length_map] at shorter
  have long := keeps.length_le
  rw [KeepsPrefix, bytes, normalizedBytes_folded, decoded] at keeps
  rw [bytes, normalizedBytes_folded, decoded] at long
  rw [List.length_append, List.length_singleton] at long
  -- nothing was dropped, so that the two texts are the same
  have drops := segmentForm_sublist (x := '/') (y := '.') (by decide)
    ((decodedBytes (before.map byteOf) ++ ['A']).map Char.toLower)
  have whole := drops.eq_of_length_le (by
    rw [List.length_map, List.length_append, List.length_singleton]
    exact (Nat.succ_le_succ short).trans long)
  rw [segmentsOnly, whole] at keeps
  have same := keeps.eq_of_length_le (by
    rw [List.length_map, List.length_map, List.length_append, List.length_append]
    exact Nat.succ_le_succ short)
  have lasts := congrArg List.getLast? same
  rw [List.map_append, List.map_append] at lasts
  simp at lasts

/-- **A prefix that starts every normalized continuation of it survives.** -/
theorem survives_of_keepsPrefix {p : List Char} (ascii : ∀ c ∈ p, c.toNat < 0x80)
    (keeps : ∀ tail, (∀ c ∈ tail, c.toNat < 0x80) → KeepsPrefix p tail) : Survives p where
  noDouble := by
    rintro ⟨before, after, rfl⟩
    have long := (keeps [] (by simp)).length_le
    have bytes : (before ++ ['/', '/'] ++ after ++ []).map byteOf
        = before.map byteOf ++ 47 :: 47 :: after.map byteOf := by simp; rfl
    rw [bytes, normalizedBytes_variant (.slash _ _)] at long
    have short := long.trans (length_normalizedBytes_le _)
    simp only [List.length_append, List.length_cons, List.length_map, List.length_nil] at short
    omega
  noDot := by
    rintro ⟨before, after, rfl⟩
    have long := (keeps [] (by simp)).length_le
    have bytes : (before ++ ['/', '.', '/'] ++ after ++ []).map byteOf
        = before.map byteOf ++ 47 :: 46 :: 47 :: after.map byteOf := by simp; decide
    rw [bytes, normalizedBytes_variant (.dot _ _)] at long
    have short := long.trans (length_normalizedBytes_le _)
    simp only [List.length_append, List.length_cons, List.length_map, List.length_nil] at short
    omega
  noDotEnd := by
    rintro ⟨before, rfl⟩
    have long := (keeps ['/'] (forall_mem_of_all (by decide))).length_le
    have bytes : (before ++ ['/', '.'] ++ ['/']).map byteOf
        = before.map byteOf ++ 47 :: 46 :: 47 :: [] := by simp; decide
    rw [bytes, normalizedBytes_variant (.dot _ _)] at long
    have short := long.trans (length_normalizedBytes_le _)
    simp only [List.length_append, List.length_cons, List.length_map, List.length_nil] at short
    omega
  noEscape := by
    rintro after ⟨before, rfl⟩
    by_contra every
    push Not at every
    match after with
    | [] => exact not_keepsPrefix_percent before (keeps ['4', '1'] (forall_mem_of_all (by decide)))
    | [hi] =>
        have isHi := (isHex_byteOf (ascii hi (by simp))).mpr (every hi (by simp))
        have long := (keeps ['1'] (forall_mem_of_all (by decide))).length_le
        have bytes : (before ++ ['%', hi] ++ ['1']).map byteOf
            = before.map byteOf ++ 37 :: byteOf hi :: 49 :: [] := by simp; exact ⟨rfl, rfl⟩
        rw [bytes] at long
        have short := long.trans (length_normalizedBytes_escape isHi (by decide) _ _)
        simp only [List.length_append, List.length_cons, List.length_map, List.length_nil] at short
        omega
    | hi :: lo :: after =>
        have isHi := (isHex_byteOf (ascii hi (by simp))).mpr (every hi (by simp))
        have isLo := (isHex_byteOf (ascii lo (by simp))).mpr (every lo (by simp))
        have long := (keeps [] (by simp)).length_le
        have bytes : (before ++ '%' :: hi :: lo :: after ++ []).map byteOf
            = before.map byteOf ++ 37 :: byteOf hi :: byteOf lo :: after.map byteOf := by simp; rfl
        rw [bytes] at long
        have short := long.trans (length_normalizedBytes_escape isHi isLo _ _)
        simp only [List.length_append, List.length_cons, List.length_map] at short
        omega

/-! ## Accepted rules -/

/-- **What an accepted path rule protects.** It matches every path that starts with its prefix if and
only if the prefix survives normalization. -/
theorem path_rule_protects_iff (text : JsonText) (probe : GateConfig) (rules : List ProtectionRule)
    (path : String) (accepted : checkRuleset text probe rules = .ok ())
    (member : .pathPrefix path ∈ rules) (absolute : path.toList.head? = some '/') :
    (∀ req : RequestView, path.toList <+: req.path.toList →
      (ProtectionRule.pathPrefix path).Matches req) ↔ Survives path.toList := by
  have ascii : ∀ c ∈ path.toList, c.toNat < 0x80 :=
    ascii_of_checkRulesFrom (encodable_of_checked accepted).fields _ member path
      (List.mem_singleton_self path)
  have matches_iff : ∀ req : RequestView, (ProtectionRule.pathPrefix path).Matches req ↔
      path.toList.map Char.toLower <+: normalizedPath req.path := by
    intro req
    rw [ProtectionRule.Matches, List.isPrefixOf_iff_prefix, toLower_eq_map, String.toList_map]
  constructor
  · intro protects
    refine survives_of_keepsPrefix ascii fun tail plain => ?_
    have every : ∀ c ∈ path.toList ++ tail, c.toNat < 0x80 := by
      intro c member
      rcases List.mem_append.mp member with here | behind
      · exact ascii c here
      · exact plain c behind
    have kept := (matches_iff _).mp (protects ⟨String.ofList (path.toList ++ tail), fun _ => none, fun _ => none⟩
      ⟨tail, String.toList_ofList.symm⟩)
    rwa [normalizedPath_bytes, utf8, String.toList_ofList, flatMap_encode every] at kept
  · rintro survives req ⟨rest, split⟩
    have whole : req.path = String.ofList (path.toList ++ rest) := by
      rw [split, String.ofList_toList]
    rw [matches_iff, whole]
    exact survives.prefix_normalizedPath ascii absolute rest

/-- A ruleset with one rule. -/
def single (path : String) : List ProtectionRule := [.pathPrefix path]

/-- Two dots in a row, and a percent sign that no continuation can make an escape. -/
theorem survives_sample : Survives "/..shop/100%-off".toList where
  noDouble := by decide +kernel
  noDot := by decide +kernel
  noDotEnd := by decide +kernel
  noEscape after suffix := by
    have every : ∀ rest ∈ "/..shop/100%-off".toList.tails, rest.head? = some '%' →
        (rest.tail.take 2).any (fun c => decide (¬ isHexChar c)) = true := by decide +kernel
    obtain ⟨c, member, other⟩ := List.any_eq_true.mp (every _ ((List.mem_tails _ _).mpr suffix) rfl)
    exact ⟨c, member, of_decide_eq_true other⟩

theorem path_rule_protects_sample :
    (ProtectionRule.pathPrefix "/..shop/100%-off").Matches
      ⟨"/..shop/100%-off/%63heckout", fun _ => none, fun _ => none⟩ :=
  (path_rule_protects_iff Sample.compactText Sample.seeded (single "/..shop/100%-off")
    "/..shop/100%-off" (Sample.checked_seeded ⟨by decide, by decide +kernel⟩ (by decide +kernel))
    (List.mem_singleton_self _) (by decide +kernel)).mpr survives_sample _ (by decide +kernel)

/-- **An operator's rule that protects nothing it names.** The text is read, the ruleset is accepted,
and the path that is the prefix does not match. -/
theorem doubled_slash_unprotected :
    parseRules String.ofList "p /shop//checkout" = .ok (single "/shop//checkout") ∧
    checkRuleset Sample.compactText Sample.seeded (single "/shop//checkout") = .ok () ∧
    ¬ (ProtectionRule.pathPrefix "/shop//checkout").Matches
      ⟨"/shop//checkout", fun _ => none, fun _ => none⟩ :=
  ⟨by decide +kernel, Sample.checked_seeded ⟨by decide, by decide +kernel⟩ (by decide +kernel),
    by decide +kernel⟩

end WaitingRoom.Edge
