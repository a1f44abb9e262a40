import WaitingRoom.Text.Rewriting
import WaitingRoom.Text.Utf8

/-!
# The ASCII outline of a text

Two programs that read the same bytes, one as characters and one letter by letter, agree on the
ASCII of a text and on where anything else stands, not on what that is. The outline of a text is its
ASCII codes with one mark for every run of other letters. Rewriting that looks at ASCII letters only
acts on the outline (`outline_settle`, `outline_replaceSuffix`, `outline_map`), and whether a text
starts with an ASCII text can be read off it (`prefix_outline`). Bytes and the characters they
decode to have one outline (`outline_fromUtf8Lossy`).
-/

set_option autoImplicit false

namespace WaitingRoom.Text

variable {α β : Type} [DecidableEq α] [DecidableEq β]

omit [DecidableEq α] in
/-- A property of every letter of a text, checked letter by letter. -/
theorem forall_mem_of_all {letters : List α} {property : α → Prop} [DecidablePred property]
    (all : letters.all (fun a => decide (property a)) = true) : ∀ a ∈ letters, property a :=
  fun a member => of_decide_eq_true (List.all_eq_true.mp all a member)

/-- The ASCII code of a letter, if it has one. -/
def plainCode (code : α → ℕ) (a : α) : Option ℕ := if code a < 0x80 then some (code a) else none

/-- The ASCII codes of a text, with one mark for every run of other letters. -/
def outline (code : α → ℕ) (text : List α) : List (Option ℕ) :=
  squeeze none (text.map (plainCode code))

section Plain

variable {code : α → ℕ}

omit [DecidableEq α] in
theorem plainCode_of_lt {a : α} (ascii : code a < 0x80) : plainCode code a = some (code a) :=
  if_pos ascii

omit [DecidableEq α] in
theorem plainCode_of_le {a : α} (other : 0x80 ≤ code a) : plainCode code a = none :=
  if_neg (Nat.not_lt.mpr other)

omit [DecidableEq α] in
/-- An ASCII letter is told apart by its code. -/
theorem plainCode_eq_iff (injective : Function.Injective code) {x : α} (ascii : code x < 0x80) (a : α) :
    plainCode code a = some (code x) ↔ a = x := by
  rw [plainCode]
  constructor
  · intro same
    split_ifs at same
    exact injective (Option.some.inj same)
  · rintro rfl
    exact if_pos ascii

omit [DecidableEq α] in
theorem plainCode_apart (injective : Function.Injective code) {x : α} (ascii : code x < 0x80) (a : α) :
    plainCode code a = plainCode code x ↔ a = x := by
  rw [plainCode_of_lt ascii]
  exact plainCode_eq_iff injective ascii a

omit [DecidableEq α] in
/-- The codes of an ASCII text. -/
theorem map_plainCode {letters : List α} (ascii : ∀ a ∈ letters, code a < 0x80) :
    letters.map (plainCode code) = (letters.map code).map some := by
  rw [List.map_map]
  exact List.map_congr_left fun a member => plainCode_of_lt (ascii a member)

omit [DecidableEq α] in
theorem none_not_mem_plain {letters : List α} (ascii : ∀ a ∈ letters, code a < 0x80) :
    none ∉ letters.map (plainCode code) := by
  rw [map_plainCode ascii]
  simp

omit [DecidableEq α] in
/-- **A text starts with an ASCII text exactly when its outline starts with the codes.** -/
theorem prefix_outline (injective : Function.Injective code) {start : List α}
    (ascii : ∀ a ∈ start, code a < 0x80) (text : List α) :
    (start.map code).map some <+: outline code text ↔ start <+: text := by
  rw [outline, ← map_plainCode ascii, prefix_squeeze (none_not_mem_plain ascii), prefix_map]
  intro x member a same
  exact (plainCode_apart injective (ascii x member) a).mp same

omit [DecidableEq α] in
/-- Renaming the letters renames the outline, if it only renames ASCII. -/
theorem outline_map {f : α → α} {g : ℕ → ℕ}
    (renames : ∀ a, plainCode code (f a) = (plainCode code a).map g) (text : List α) :
    outline code (text.map f) = (outline code text).map (Option.map g) := by
  rw [outline, outline, map_squeeze (by simp), List.map_map, List.map_map]
  exact congrArg (squeeze none) (List.map_congr_left fun a _ => renames a)

theorem outline_tidy (injective : Function.Injective code) {x y : α} (asciiX : code x < 0x80)
    (asciiY : code y < 0x80) (text : List α) :
    outline code (tidy x y text) = tidy (some (code x)) (some (code y)) (outline code text) := by
  have mapped := map_tidy (plainCode_apart injective asciiX) (plainCode_apart injective asciiY) text
  rw [plainCode_of_lt asciiX, plainCode_of_lt asciiY] at mapped
  rw [outline, mapped, squeeze_tidy (by simp) (by simp), outline]

theorem outline_replaceSuffix (injective : Function.Injective code) {suffix replacement : List α}
    (ascii : ∀ a ∈ suffix, code a < 0x80) (ascii' : ∀ a ∈ replacement, code a < 0x80)
    (text : List α) :
    outline code (replaceSuffix suffix replacement text) =
      replaceSuffix ((suffix.map code).map some) ((replacement.map code).map some)
        (outline code text) := by
  rw [outline, map_replaceSuffix (fun x member a same =>
      (plainCode_apart injective (ascii x member) a).mp same),
    squeeze_replaceSuffix (none_not_mem_plain ascii) (none_not_mem_plain ascii'),
    map_plainCode ascii, map_plainCode ascii', outline]

theorem outline_iterate (injective : Function.Injective code) {x y : α} (asciiX : code x < 0x80)
    (asciiY : code y < 0x80) (rounds : ℕ) (text : List α) :
    outline code ((tidy x y)^[rounds] text) =
      (tidy (some (code x)) (some (code y)))^[rounds] (outline code text) := by
  induction rounds generalizing text with
  | zero => rfl
  | succ rounds ih =>
      rw [Function.iterate_succ_apply, ih, outline_tidy injective asciiX asciiY,
        Function.iterate_succ_apply]

end Plain

/-- **Tidying texts of one outline until they are stable leaves texts of one outline.** -/
theorem outline_settle {code : α → ℕ} {code' : β → ℕ} (injective : Function.Injective code)
    (injective' : Function.Injective code') {x y : α} {x' y' : β} (sameX : code x = code' x')
    (sameY : code y = code' y') (asciiX : code x < 0x80) (asciiY : code y < 0x80) {text : List α}
    {text' : List β} (same : outline code text = outline code' text') :
    outline code (untilStable (tidy x y) text.length text) =
      outline code' (untilStable (tidy x' y') text'.length text') := by
  -- the loops need not take the same number of rounds, but both are stable after this many
  have enough := Nat.le_max_left text.length text'.length
  have enough' := Nat.le_max_right text.length text'.length
  rw [untilStable_eq_iterate, untilStable_eq_iterate,
    ← iterate_eq_of_le (tidy_shortens x y) enough, ← iterate_eq_of_le (tidy_shortens x' y') enough',
    outline_iterate injective asciiX asciiY, outline_iterate injective' (sameX ▸ asciiX) (sameY ▸ asciiY),
    same, sameX, sameY]

/-! ## Bytes and characters -/

/-- A run of other letters is one mark. -/
theorem squeeze_marks {marks text : List (Option ℕ)} (all : ∀ mark ∈ marks, mark = none) :
    squeeze none (none :: (marks ++ text)) = squeeze none (none :: text) := by
  induction marks with
  | nil => rfl
  | cons mark marks ih =>
      obtain rfl := all mark List.mem_cons_self
      rw [List.cons_append, squeeze_cons_cons,
        ih fun later member => all later (List.mem_cons_of_mem _ member)]

/-- Squeezing goes on behind the first letter. -/
theorem squeeze_cons_congr (x a : Option ℕ) {text text' : List (Option ℕ)}
    (same : squeeze x text = squeeze x text') : squeeze x (a :: text) = squeeze x (a :: text') := by
  have head : text.head? = text'.head? := by rw [← head?_squeeze x text, same, head?_squeeze]
  rw [squeeze, squeeze, head, same]

/-- **Bytes and the characters they decode to have one outline.** -/
theorem outline_fromUtf8Lossy (bytes : List UInt8) :
    outline Char.toNat (fromUtf8Lossy bytes) = outline UInt8.toNat bytes := by
  induction length : bytes.length using Nat.strong_induction_on generalizing bytes with
  | _ size ih =>
      cases bytes with
      | nil => rfl
      | cons lead rest =>
          have shorter : ∀ taken, (rest.drop taken).length < size := by
            intro taken
            rw [← length, List.length_drop, List.length_cons]
            omega
          rw [fromUtf8Lossy_cons, outline, outline, List.map_cons, List.map_cons]
          rcases Nat.lt_or_ge lead.toNat 0x80 with ascii | other
          · have character : (Char.ofNat lead.toNat).toNat = lead.toNat :=
              ofNat_toNat_of_valid (.inl (by omega))
            rw [decodeChunk_ascii ascii, plainCode_of_lt ascii,
              plainCode_of_lt (by rw [character]; exact ascii), character]
            exact squeeze_cons_congr _ _ (ih _ (shorter 0) (rest.drop 0) rfl)
          · obtain ⟨foreign, -, taken⟩ := decodeChunk_other other rest
            rw [plainCode_of_le foreign, plainCode_of_le other]
            have marks : ∀ mark ∈ (rest.take (decodeChunk lead rest).2).map (plainCode UInt8.toNat),
                mark = none := by
              intro mark member
              obtain ⟨tail, found, rfl⟩ := List.mem_map.mp member
              exact plainCode_of_le (taken tail found)
            have split : rest.map (plainCode UInt8.toNat) =
                (rest.take (decodeChunk lead rest).2).map (plainCode UInt8.toNat) ++
                  (rest.drop (decodeChunk lead rest).2).map (plainCode UInt8.toNat) := by
              rw [← List.map_append, List.take_append_drop]
            rw [split, squeeze_marks marks]
            exact squeeze_cons_congr _ _ (ih _ (shorter _) (rest.drop _) rfl)

end WaitingRoom.Text
