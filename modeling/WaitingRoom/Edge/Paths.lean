import WaitingRoom.Edge.Matching
import WaitingRoom.Text.Percent
import WaitingRoom.Text.Segments
import Mathlib.Logic.Relation

/-!
# Normalized paths

A request's path is decoded, tidied until nothing changes, and folded. What comes out is the segment
form of the decoded path (`normalizedPath_eq_form`). A path may be written in many ways that an
origin takes for the same: with another slash or a dot segment behind a slash, with bytes escaped,
and in another case (`Variant`). Whatever such steps are combined, the normalized path stays the same
(`normalizedBytes_variants`), and with it what a path rule matches.
-/

set_option autoImplicit false

namespace WaitingRoom.Edge

open Text

/-! ## The segment form -/

/-- What the loop repeats. -/
def tidyPath (p : List Char) : List Char := replaceDotSegments (collapseSlashes p)

theorem tidyPath_eq (p : List Char) : tidyPath p = tidy '/' '.' p := by
  rw [tidyPath, replaceDotSegments_eq, collapseSlashes_eq, tidy]

/-- The decoded path. -/
def decodedBytes (bytes : List UInt8) : List Char := fromUtf8Lossy (percentDecode bytes)

def decodedPath (path : String) : List Char := decodedBytes (utf8 path)

/-- The normalized path of the bytes of a path. -/
def normalizedBytes (bytes : List UInt8) : List Char :=
  (stripTrailingDot
    (untilStable tidyPath (decodedBytes bytes).length (decodedBytes bytes))).map Char.toLower

theorem normalizedPath_bytes (path : String) : normalizedPath path = normalizedBytes (utf8 path) :=
  rfl

/-- Drop the empty and the dot segments, and keep a slash at the end where the last was one. -/
def segmentsOnly (p : List Char) : List Char := segmentForm '/' '.' p

/-- **The loop computes the segment form**, and ends with a text that it leaves alone. -/
theorem normalizedBytes_eq (bytes : List UInt8) :
    normalizedBytes bytes = (segmentsOnly (decodedBytes bytes)).map Char.toLower := by
  have steps : tidyPath = tidy '/' '.' := funext tidyPath_eq
  have stable := untilStable_stable (tidy_shortens '/' '.') (decodedBytes bytes)
  rw [normalizedBytes, steps, stripTrailingDot_eq, tidied_eq_segmentForm (by decide) stable,
    untilStable_eq_iterate, segmentForm_iterate (by decide), segmentsOnly]

/-! ## Decoding -/

/-- Whether a byte is a hex digit. -/
def isHex (b : UInt8) : Prop := (hexVal b).isSome

instance : DecidablePred isHex := fun b => inferInstanceAs (Decidable ((hexVal b).isSome = true))

/-- A well-formed escape at the front of the bytes. -/
def EscapeAhead (bytes : List UInt8) : Prop :=
  ∃ hi lo rest, bytes = 37 :: hi :: lo :: rest ∧ isHex hi ∧ isHex lo

theorem percentDecode_escape' {hi lo high low : UInt8} (isHigh : hexVal hi = some high)
    (isLow : hexVal lo = some low) (rest : List UInt8) :
    percentDecode (37 :: hi :: lo :: rest) = (high * 16 + low) :: percentDecode rest := by
  rw [percentDecode, isHigh, isLow]

theorem percentDecode_cons {b : UInt8} {rest : List UInt8} (plain : ¬ EscapeAhead (b :: rest)) :
    percentDecode (b :: rest) = b :: percentDecode rest := by
  by_cases percent : b = 37
  · subst percent
    match rest with
    | [] => rfl
    | [first] => rfl
    | first :: second :: rest =>
        rw [percentDecode]
        split
        · next hi lo high low => exact absurd ⟨_, _, _, rfl, by simp [isHex, high], by simp [isHex, low]⟩ plain
        · rfl
  · rw [percentDecode]
    rintro first second more same -
    exact percent same

/-- Bytes are read escape by escape and byte by byte. -/
theorem escape_induction {motive : List UInt8 → Prop} (nil : motive [])
    (escape : ∀ {hi lo high low : UInt8} (rest : List UInt8), hexVal hi = some high →
      hexVal lo = some low → motive rest → motive (37 :: hi :: lo :: rest))
    (plain : ∀ (b : UInt8) (rest : List UInt8), ¬ EscapeAhead (b :: rest) → motive rest →
      motive (b :: rest))
    (bytes : List UInt8) : motive bytes := by
  induction length : bytes.length using Nat.strongRecOn generalizing bytes with
  | ind n ih =>
      cases bytes with
      | nil => exact nil
      | cons b rest =>
          rw [List.length_cons] at length
          by_cases ahead : EscapeAhead (b :: rest)
          · obtain ⟨hi, lo, more, split, isHi, isLo⟩ := ahead
            obtain ⟨rfl, rfl⟩ := List.cons.inj split
            obtain ⟨high, isHigh⟩ := Option.isSome_iff_exists.mp isHi
            obtain ⟨low, isLow⟩ := Option.isSome_iff_exists.mp isLo
            simp only [List.length_cons] at length
            exact escape more isHigh isLow (ih _ (by omega) more rfl)
          · exact plain b rest ahead (ih _ (by omega) rest rfl)

/-- There are no more decoded bytes than bytes. -/
theorem length_percentDecode_le (bytes : List UInt8) :
    (percentDecode bytes).length ≤ bytes.length := by
  induction bytes using escape_induction with
  | nil => exact Nat.zero_le _
  | escape rest isHigh isLow ih =>
      rw [percentDecode_escape' isHigh isLow]
      simp only [List.length_cons]
      omega
  | plain b rest ahead ih =>
      rw [percentDecode_cons ahead]
      exact Nat.succ_le_succ ih

/-- An escape that lies on both sides of a cut. -/
def Straddles (before after : List UInt8) : Prop :=
  ∃ front hi lo back, before ++ after = front ++ 37 :: hi :: lo :: back ∧ isHex hi ∧ isHex lo ∧
    front.length < before.length ∧ before.length < front.length + 3

/-- **Bytes may be cut where no escape is.** -/
theorem percentDecode_append {before after : List UInt8} (whole : ¬ Straddles before after) :
    percentDecode (before ++ after) = percentDecode before ++ percentDecode after := by
  induction length : before.length using Nat.strongRecOn generalizing before with
  | ind n ih =>
      cases before with
      | nil => rfl
      | cons a rest =>
          by_cases ahead : EscapeAhead (a :: rest ++ after)
          · obtain ⟨hi, lo, back, split, isHi, isLo⟩ := ahead
            have inside : 3 ≤ (a :: rest).length := by
              by_contra short
              exact whole ⟨[], hi, lo, back, split, isHi, isLo, by simp, by simp at short ⊢; omega⟩
            match rest, inside with
            | first :: second :: rest, _ =>
                obtain ⟨rfl, rfl, rfl, -⟩ : a = 37 ∧ first = hi ∧ second = lo ∧ rest ++ after = back := by
                  simpa using split
                obtain ⟨high, isHigh⟩ := Option.isSome_iff_exists.mp isHi
                obtain ⟨low, isLow⟩ := Option.isSome_iff_exists.mp isLo
                have later : ¬ Straddles rest after := by
                  rintro ⟨front, hi, lo, back, split, isHi, isLo, starts, ends⟩
                  refine whole ⟨37 :: first :: second :: front, hi, lo, back, ?_, isHi, isLo, ?_, ?_⟩
                  · rw [List.cons_append, List.cons_append, List.cons_append, split]
                    rfl
                  · simpa using starts
                  · simp only [List.length_cons]
                    omega
                simp only [List.cons_append]
                rw [percentDecode_escape' isHigh isLow, percentDecode_escape' isHigh isLow,
                  ih _ (by rw [← length]; simp only [List.length_cons]; omega) later rfl]
                rfl
          · have plain : ¬ EscapeAhead (a :: rest) := by
              rintro ⟨hi, lo, back, split, isHi, isLo⟩
              exact ahead ⟨hi, lo, back ++ after, by rw [split]; rfl, isHi, isLo⟩
            have later : ¬ Straddles rest after := by
              rintro ⟨front, hi, lo, back, split, isHi, isLo, starts, ends⟩
              refine whole ⟨a :: front, hi, lo, back, by rw [List.cons_append, split]; rfl, isHi, isLo,
                ?_, ?_⟩
              · simpa using starts
              · simp only [List.length_cons]
                omega
            rw [List.cons_append] at ahead ⊢
            rw [percentDecode_cons ahead, percentDecode_cons plain,
              ih _ (by rw [← length]; simp) later rfl]
            rfl

/-- What stands behind a straddled cut is a hex digit. -/
theorem isHex_of_straddles {before after : List UInt8} {b : UInt8}
    (straddles : Straddles before (b :: after)) : isHex b := by
  obtain ⟨front, hi, lo, back, split, isHi, isLo, starts, ends⟩ := straddles
  have here := congrArg (fun bytes : List UInt8 => bytes[before.length]?) split
  simp only [List.getElem?_append_right (Nat.le_refl _), Nat.sub_self, List.getElem?_cons_zero] at here
  rw [List.getElem?_append_right (by omega)] at here
  rcases (by omega : before.length - front.length = 1 ∨ before.length - front.length = 2)
    with one | two
  · rw [one] at here
    obtain rfl : b = hi := by simpa using here
    exact isHi
  · rw [two] at here
    obtain rfl : b = lo := by simpa using here
    exact isLo

/-- A byte that is neither a percent sign nor a hex digit decodes to itself, and is a cut. -/
theorem percentDecode_append_plain {b : UInt8} (noPercent : b ≠ 37) (noHex : ¬ isHex b)
    (before after : List UInt8) :
    percentDecode (before ++ b :: after) = percentDecode before ++ b :: percentDecode after := by
  rw [percentDecode_append fun straddles => noHex (isHex_of_straddles straddles), percentDecode_cons]
  rintro ⟨hi, lo, rest, split, -, -⟩
  exact noPercent (List.cons.inj split).1

/-- **A decoded path may be cut at a slash or a dot.** -/
theorem decodedBytes_append {b : UInt8} (noPercent : b ≠ 37) (noHex : ¬ isHex b)
    (ascii : b.toNat < 0x80) (before after : List UInt8) :
    decodedBytes (before ++ b :: after)
      = decodedBytes before ++ Char.ofNat b.toNat :: decodedBytes after := by
  rw [decodedBytes, percentDecode_append_plain noPercent noHex, fromUtf8Lossy_append_ascii ascii,
    fromUtf8Lossy_cons, decodeChunk_ascii ascii]
  rfl

/-! ## Other ways to write a path -/

/-- A byte that is part of a well-formed escape. -/
def PartOfEscape (bytes : List UInt8) (position : ℕ) : Prop :=
  ∃ front hi lo back, bytes = front ++ 37 :: hi :: lo :: back ∧ isHex hi ∧ isHex lo ∧
    front.length ≤ position ∧ position < front.length + 3

/-- The lower case of an ASCII letter. -/
def lowerByte (b : UInt8) : UInt8 := if 65 ≤ b ∧ b ≤ 90 then b + 32 else b

/-- One step from a path to another that is written for the same. -/
inductive Variant : List UInt8 → List UInt8 → Prop
  | slash (before after : List UInt8) :
      Variant (before ++ 47 :: after) (before ++ 47 :: 47 :: after)
  | dot (before after : List UInt8) :
      Variant (before ++ 47 :: after) (before ++ 47 :: 46 :: 47 :: after)
  | escape (before after : List UInt8) {b hi lo high low : UInt8}
      (free : ¬ PartOfEscape (before ++ b :: after) before.length) (isHigh : hexVal hi = some high)
      (isLow : hexVal lo = some low) (own : high * 16 + low = b) :
      Variant (before ++ b :: after) (before ++ 37 :: hi :: lo :: after)
  | letterCase (before after : List UInt8) {b c : UInt8} (same : lowerByte b = lowerByte c) :
      Variant (before ++ b :: after) (before ++ c :: after)

/-- An escape of a byte that is part of none decodes to that byte. -/
theorem percentDecode_escaped {before after : List UInt8} {b hi lo high low : UInt8}
    (free : ¬ PartOfEscape (before ++ b :: after) before.length) (isHigh : hexVal hi = some high)
    (isLow : hexVal lo = some low) (own : high * 16 + low = b) :
    percentDecode (before ++ 37 :: hi :: lo :: after) = percentDecode (before ++ b :: after) := by
  have whole : ¬ Straddles before (b :: after) := by
    rintro ⟨front, hi, lo, back, split, isHi, isLo, starts, ends⟩
    exact free ⟨front, hi, lo, back, split, isHi, isLo, Nat.le_of_lt starts, ends⟩
  have plain : ¬ EscapeAhead (b :: after) := by
    rintro ⟨hi, lo, back, split, isHi, isLo⟩
    exact free ⟨before, hi, lo, back, by rw [split], isHi, isLo, Nat.le_refl _, by omega⟩
  have percent : ¬ isHex 37 := by decide
  rw [percentDecode_append fun straddles => percent (isHex_of_straddles straddles),
    percentDecode_append whole, percentDecode_escape' isHigh isLow, percentDecode_cons plain, own]

/-! ## Case -/

theorem hexVal_lowerByte : ∀ b, hexVal (lowerByte b) = hexVal b := forall_byte (by decide +kernel)

theorem lowerByte_eq_percent : ∀ b, lowerByte b = 37 ↔ b = 37 := forall_byte (by decide +kernel)

theorem lowerByte_idem : ∀ b, lowerByte (lowerByte b) = lowerByte b :=
  forall_byte (by decide +kernel)

theorem foldsAscii_lowerByte : FoldsAscii lowerByte where
  keeps := forall_byte (by decide +kernel)
  ascii := forall_byte (by decide +kernel)

theorem toLower_lowerByte : ∀ b : UInt8, b.toNat < 0x80 →
    (Char.ofNat (lowerByte b).toNat).toLower = (Char.ofNat b.toNat).toLower :=
  forall_byte (by decide +kernel)

theorem escapeAhead_lowerByte (bytes : List UInt8) :
    EscapeAhead (bytes.map lowerByte) ↔ EscapeAhead bytes := by
  constructor
  · rintro ⟨hi, lo, rest, split, isHi, isLo⟩
    obtain ⟨a, behind, rfl, percent, others⟩ := List.map_eq_cons_iff.mp split
    obtain ⟨first, further, rfl, rfl, last⟩ := List.map_eq_cons_iff.mp others
    obtain ⟨second, more, rfl, rfl, -⟩ := List.map_eq_cons_iff.mp last
    rw [isHex, hexVal_lowerByte] at isHi isLo
    exact ⟨first, second, more, by rw [(lowerByte_eq_percent a).mp percent], isHi, isLo⟩
  · rintro ⟨hi, lo, rest, rfl, isHi, isLo⟩
    refine ⟨lowerByte hi, lowerByte lo, rest.map lowerByte, rfl, ?_, ?_⟩
    · rwa [isHex, hexVal_lowerByte]
    · rwa [isHex, hexVal_lowerByte]

/-- Escapes are read alike in either case. -/
theorem percentDecode_lowerByte (bytes : List UInt8) :
    (percentDecode (bytes.map lowerByte)).map lowerByte = (percentDecode bytes).map lowerByte := by
  induction bytes using escape_induction with
  | nil => rfl
  | @escape hi lo high low rest isHigh isLow ih =>
      have folded : (37 :: hi :: lo :: rest).map lowerByte
          = 37 :: lowerByte hi :: lowerByte lo :: rest.map lowerByte := rfl
      rw [folded, percentDecode_escape' ((hexVal_lowerByte hi).trans isHigh)
        ((hexVal_lowerByte lo).trans isLow), percentDecode_escape' isHigh isLow, List.map_cons,
        List.map_cons, ih]
  | plain b rest ahead ih =>
      have plain : ¬ EscapeAhead (lowerByte b :: rest.map lowerByte) := fun folded =>
        ahead ((escapeAhead_lowerByte (b :: rest)).mp folded)
      rw [List.map_cons, percentDecode_cons plain, percentDecode_cons ahead, List.map_cons,
        List.map_cons, ih, lowerByte_idem]

/-- A folded path depends on the case of no letter. -/
theorem decodedBytes_lowerByte (bytes : List UInt8) :
    (decodedBytes (bytes.map lowerByte)).map Char.toLower
      = (decodedBytes bytes).map Char.toLower := by
  have decoded := percentDecode_lowerByte bytes
  rw [decodedBytes, decodedBytes, ← map_fromUtf8Lossy foldsAscii_lowerByte toLower_lowerByte, decoded,
    map_fromUtf8Lossy foldsAscii_lowerByte toLower_lowerByte]

/-- A character that is no letter is the fold of itself alone. -/
theorem toLower_eq_iff {d : Char} (noLetter : d.toNat < 65) (c : Char) :
    c.toLower = d.toLower ↔ c = d := by
  refine ⟨fun same => ?_, fun same => same ▸ rfl⟩
  have codes := congrArg Char.toNat same
  rw [toNat_toLower, toNat_toLower, lowerCode, lowerCode] at codes
  apply toNat_char_injective
  split_ifs at codes <;> omega

/-- **The normalized path is the segment form of the folded path.** -/
theorem normalizedBytes_folded (bytes : List UInt8) :
    normalizedBytes bytes = segmentsOnly ((decodedBytes bytes).map Char.toLower) := by
  rw [normalizedBytes_eq, segmentsOnly, segmentsOnly]
  exact map_segmentForm (toLower_eq_iff (by decide)) (toLower_eq_iff (by decide)) _

/-! ## Every way to write a path is normalized alike -/

theorem normalizedBytes_variant {bytes other : List UInt8} (variant : Variant bytes other) :
    normalizedBytes other = normalizedBytes bytes := by
  have slash : ∀ before after, decodedBytes (before ++ 47 :: after)
      = decodedBytes before ++ '/' :: decodedBytes after :=
    decodedBytes_append (by decide) (by decide) (by decide)
  have dot : ∀ before after, decodedBytes (before ++ 46 :: after)
      = decodedBytes before ++ '.' :: decodedBytes after :=
    decodedBytes_append (by decide) (by decide) (by decide)
  cases variant with
  | slash before after =>
      have second := slash [] after
      rw [normalizedBytes_eq, normalizedBytes_eq, slash, slash, segmentsOnly, segmentsOnly]
      rw [List.nil_append] at second
      rw [second]
      exact congrArg _ (segmentForm_double _ _)
  | dot before after =>
      have first := dot [] (47 :: after)
      have second := slash [] after
      rw [List.nil_append] at first second
      rw [normalizedBytes_eq, normalizedBytes_eq, slash, slash, first, second, segmentsOnly,
        segmentsOnly]
      exact congrArg _ (segmentForm_dot (by decide) _ _)
  | escape before after free isHigh isLow own =>
      rw [normalizedBytes_eq, normalizedBytes_eq, decodedBytes, decodedBytes,
        percentDecode_escaped free isHigh isLow own]
  | letterCase before after same =>
      rw [normalizedBytes_folded, normalizedBytes_folded, ← decodedBytes_lowerByte,
        ← decodedBytes_lowerByte (before ++ _ :: after)]
      simp only [List.map_append, List.map_cons, same]

/-- **However such steps are combined, the normalized path is the same.** -/
theorem normalizedBytes_variants {bytes other : List UInt8}
    (variants : Relation.EqvGen Variant bytes other) :
    normalizedBytes other = normalizedBytes bytes := by
  induction variants with
  | rel first second variant => exact normalizedBytes_variant variant
  | refl first => rfl
  | symm first second _ ih => exact ih.symm
  | trans first second third _ _ ih others => exact others.trans ih

/-! ## The form of an absolute path -/

/-- Split at slashes, drop every empty and every dot segment, and join again, with a slash at the end
where the last segment was dropped. -/
def onePass (p : List Char) : List Char :=
  let segments := p.splitOn '/'
  let kept := segments.filter fun segment => segment ≠ [] ∧ segment ≠ ['.']
  '/' :: ['/'].intercalate kept ++
    if kept ≠ [] ∧ (segments.getLast? = some [] ∨ segments.getLast? = some ['.']) then ['/'] else []

theorem significant_eq (segment : List Char) :
    significant '.' segment = decide (segment ≠ [] ∧ segment ≠ ['.']) := rfl

theorem segmentsOnly_absolute {p : List Char} (absolute : p.head? = some '/') :
    segmentsOnly p = onePass p := by
  obtain ⟨rest, rfl⟩ := List.head?_eq_some_iff.mp absolute
  have cut : ('/' :: rest).splitOn '/' = [] :: rest.splitOn '/' :=
    by rw [List.splitOn_cons_eq_if_modifyHead, if_pos (by decide)]
  obtain ⟨last, isLast⟩ : ∃ last, (rest.splitOn '/').getLast? = some last :=
    ⟨_, List.getLast?_eq_getLast_of_ne_nil (List.splitOn_ne_nil '/' rest)⟩
  have lastMem : last ∈ rest.splitOn '/' := List.mem_of_getLast? isLast
  have filtered : ([] :: rest.splitOn '/').filter (fun segment => segment ≠ [] ∧ segment ≠ ['.'])
      = (rest.splitOn '/').filter (significant '.') := by
    rw [List.filter_cons, if_neg (by simp)]
    rfl
  have lastAll : ([] :: rest.splitOn '/').getLast? = some last := by
    rw [List.getLast?_cons_of_ne_nil (List.splitOn_ne_nil '/' rest), isLast]
  rw [segmentsOnly, segmentForm, onePass, cut, joinSegments, filtered, lastAll, isLast, Option.any_some,
    List.nil_append]
  cases kept : (rest.splitOn '/').filter (significant '.') with
  | nil =>
      have dropped : significant '.' last = false := by
        have none := List.filter_eq_nil_iff.mp kept last lastMem
        exact Bool.not_eq_true _ ▸ none
      simp [dropped]
  | cons first more =>
      rw [intercalate_eq_flatMap, List.flatMap_cons]
      have silent : (!significant '.' last) = true ↔ some last = some [] ∨ some last = some ['.'] := by
        rw [Bool.not_eq_true', significant_eq, decide_eq_false_iff_not, Option.some.injEq,
          Option.some.injEq]
        tauto
      simp [silent]

/-- A path that starts with a slash decodes to one. -/
theorem decodedBytes_absolute {path : String} (absolute : path.toList.head? = some '/') :
    (decodedBytes (utf8 path)).head? = some '/' := by
  obtain ⟨rest, whole⟩ := List.head?_eq_some_iff.mp absolute
  have bytes : utf8 path = [] ++ 47 :: rest.flatMap String.utf8EncodeChar := by
    rw [utf8, whole, List.flatMap_cons]
    rfl
  rw [bytes, decodedBytes_append (by decide) (by decide) (by decide)]
  rfl

/-- **Normalization is the one-pass segment form, and no other way to write a path evades a rule.**
The loop reaches a text it leaves alone, and whenever it does that text is the modelled one. -/
theorem normalizedPath_absolute (path : String) (absolute : path.toList.head? = some '/') :
    ((∃ rounds, tidyPath^[rounds + 1] (decodedPath path) = tidyPath^[rounds] (decodedPath path)) ∧
      ∀ rounds, tidyPath^[rounds + 1] (decodedPath path) = tidyPath^[rounds] (decodedPath path) →
        normalizedPath path =
          (stripTrailingDot (tidyPath^[rounds] (decodedPath path))).map Char.toLower) ∧
    normalizedPath path = (onePass (decodedPath path)).map Char.toLower ∧
    ∀ other : String, Relation.EqvGen Variant (utf8 path) (utf8 other) →
      normalizedPath other = normalizedPath path ∧
        ∀ (start : String) (req : RequestView),
          (ProtectionRule.pathPrefix start).Matches { req with path := other }
            = (ProtectionRule.pathPrefix start).Matches { req with path := path } := by
  have steps : tidyPath = tidy '/' '.' := funext tidyPath_eq
  have shortens : Shortens tidyPath := steps ▸ tidy_shortens '/' '.'
  refine ⟨⟨⟨(decodedPath path).length, ?_⟩, fun rounds stable => ?_⟩, ?_, fun other variants => ?_⟩
  · rw [Function.iterate_succ_apply']
    exact iterate_stable shortens (Nat.le_refl _)
  · -- two texts of one run that the step leaves alone are the same
    have same : tidyPath^[(decodedPath path).length] (decodedPath path)
        = tidyPath^[rounds] (decodedPath path) := by
      rw [Function.iterate_succ_apply'] at stable
      rcases Nat.le_total rounds (decodedPath path).length with earlier | later
      · obtain ⟨more, count⟩ := Nat.exists_eq_add_of_le' earlier
        rw [count, Function.iterate_add_apply, iterate_of_stable stable]
      · exact (iterate_eq_of_le shortens later).symm
    rw [normalizedPath_bytes, normalizedBytes, untilStable_eq_iterate, ← decodedPath, same]
  · rw [normalizedPath_bytes, normalizedBytes_eq,
      segmentsOnly_absolute (decodedBytes_absolute absolute), decodedPath]
  · have alike : normalizedPath other = normalizedPath path := normalizedBytes_variants variants
    refine ⟨alike, fun start req => ?_⟩
    rw [ProtectionRule.Matches, ProtectionRule.Matches, alike]

/-- A path with stacked slashes and dot segments, escapes and capitals. -/
theorem normalizedPath_absolute_sample :
    normalizedPath "/.//Shop/././%63heckout/." = "/shop/checkout/".toList :=
  (normalizedPath_absolute "/.//Shop/././%63heckout/." (by decide +kernel)).2.1.trans
    (by decide +kernel)

end WaitingRoom.Edge
