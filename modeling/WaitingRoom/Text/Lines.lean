import Mathlib.Data.List.DropRight

/-!
# Lines, fields and header values

A text is cut into lines, a line is trimmed, and a trimmed line is split at its first separator.
`lines_append_newline` reads back a line that was written with its newline, `trim_of_trimmed` and
`splitOnce_append` read back the fields of one, and `trimmed_trim`, `of_splitOnce` and
`newline_not_mem_of_mem_lines` say what the fields that were read look like. A header's value is read
as a text only where it is visible throughout (`headerText_of_visible`).
-/

set_option autoImplicit false

namespace WaitingRoom.Text

variable {α : Type}

/-! ## Lines -/

/-- Put a letter in front of the first line. -/
def consLine (a : α) : List (List α) → List (List α)
  | [] => [[a]]
  | line :: more => (a :: line) :: more

/-- The lines of a text. A line ends at a newline, which a return may precede. -/
def lines [DecidableEq α] (newline ret : α) : List α → List (List α)
  | [] => []
  | a :: rest =>
      if a = newline then [] :: lines newline ret rest
      else if a = ret ∧ rest.head? = some newline then lines newline ret rest
      else consLine a (lines newline ret rest)

section Lines

variable [DecidableEq α] {newline ret : α}

/-- No line has a newline in it. -/
theorem newline_not_mem_of_mem_lines {text line : List α} (mem : line ∈ lines newline ret text) :
    newline ∉ line := by
  induction text generalizing line with
  | nil => exact absurd mem List.not_mem_nil
  | cons a rest ih =>
      rw [lines] at mem
      split_ifs at mem with ends returns
      · rcases List.mem_cons.mp mem with rfl | later
        · exact List.not_mem_nil
        · exact ih later
      · exact ih mem
      · cases tail : lines newline ret rest with
        | nil =>
            rw [tail, consLine, List.mem_singleton] at mem
            rw [mem, List.mem_singleton]
            exact fun same => ends same.symm
        | cons first more =>
            rw [tail] at ih mem
            rcases List.mem_cons.mp mem with rfl | later
            · rw [List.mem_cons]
              rintro (same | inside)
              · exact ends same.symm
              · exact ih List.mem_cons_self inside
            · exact ih (List.mem_cons_of_mem _ later)

/-- A line written with its newline is the first line read, unless it ends in a return. -/
theorem lines_append_newline {line : List α} (inner : newline ∉ line)
    (last : line.getLast? ≠ some ret) (text : List α) :
    lines newline ret (line ++ newline :: text) = line :: lines newline ret text := by
  induction line with
  | nil => rw [List.nil_append, lines, if_pos rfl]
  | cons a rest ih =>
      have ends : a ≠ newline := fun same => inner (same ▸ List.mem_cons_self)
      have returns : ¬ (a = ret ∧ (rest ++ newline :: text).head? = some newline) := by
        rintro ⟨rfl, next⟩
        cases rest with
        | nil => exact last rfl
        | cons b more =>
            rw [List.cons_append, List.head?_cons, Option.some.injEq] at next
            exact inner (next ▸ List.mem_cons_of_mem _ List.mem_cons_self)
      have later : lines newline ret (rest ++ newline :: text)
          = rest :: lines newline ret text := by
        cases rest with
        | nil => rw [List.nil_append, lines, if_pos rfl]
        | cons b more =>
            rw [List.getLast?_cons_cons] at last
            exact ih (fun mem => inner (List.mem_cons_of_mem _ mem)) last
      rw [List.cons_append, lines, if_neg ends, if_neg returns, later, consLine]

end Lines

/-- What precedes the first separator goes to the first part. -/
theorem splitOn_append_of_not_mem [DecidableEq α] {x : α} {front : List α} (plain : x ∉ front) (rest : List α) :
    (front ++ rest).splitOn x = (rest.splitOn x).modifyHead (front ++ ·) := by
  induction front with
  | nil =>
      rw [List.nil_append]
      cases rest.splitOn x <;> rfl
  | cons a front ih =>
      rw [List.mem_cons, not_or] at plain
      rw [List.cons_append, List.splitOn_cons_eq_if_modifyHead, ih plain.2,
        if_neg (by simpa using fun same => plain.1 same.symm), List.modifyHead_modifyHead]
      rfl

/-! ## Trimming -/

/-- Drop the blanks of both ends. -/
def trim (blank : α → Bool) (text : List α) : List α := (text.dropWhile blank).rdropWhile blank

/-- A text that neither begins nor ends with a blank. -/
structure Trimmed (blank : α → Bool) (text : List α) : Prop where
  head : ∀ a ∈ text.head?, blank a = false
  last : ∀ a ∈ text.getLast?, blank a = false

section Trimming

variable {blank : α → Bool} {text : List α}

theorem rdropWhile_of_last (last : ∀ a ∈ text.getLast?, blank a = false) :
    text.rdropWhile blank = text := by
  rw [List.rdropWhile_eq_self_iff]
  intro nonempty
  rw [last _ (List.getLast?_eq_getLast_of_ne_nil nonempty)]
  exact Bool.false_ne_true

theorem trim_of_trimmed (trimmed : Trimmed blank text) : trim blank text = text := by
  have start : text.dropWhile blank = text := by
    cases text with
    | nil => rfl
    | cons a rest =>
        refine List.dropWhile_cons_of_neg ?_
        rw [trimmed.head a rfl]
        exact Bool.false_ne_true
  rw [trim, start, rdropWhile_of_last trimmed.last]

/-- What is left after trimming is a part of the text. -/
theorem trim_subset (blank : α → Bool) (text : List α) : trim blank text ⊆ text := fun _ mem =>
  (List.dropWhile_sublist blank).subset ((List.rdropWhile_prefix blank _).subset mem)

/-- A text with a letter that is no blank does not vanish. -/
theorem trim_ne_nil {a : α} (mem : a ∈ text) (solid : blank a = false) : trim blank text ≠ [] := by
  intro empty
  have rest := List.rdropWhile_eq_nil_iff.mp empty
  rw [← List.takeWhile_append_dropWhile (p := blank) (l := text), List.mem_append] at mem
  rcases mem with start | later
  · exact Bool.false_ne_true (solid ▸ List.mem_takeWhile_imp start)
  · exact Bool.false_ne_true (solid ▸ rest a later)

theorem trimmed_trim (blank : α → Bool) (text : List α) : Trimmed blank (trim blank text) where
  head := by
    intro a first
    obtain ⟨dropped, split⟩ := List.rdropWhile_prefix blank (text.dropWhile blank)
    obtain ⟨rest, kept⟩ := List.head?_eq_some_iff.mp (Option.mem_def.mp first)
    rw [trim] at kept
    rw [kept, List.cons_append] at split
    have stops := List.head_dropWhile_not blank (l := text) (by simp [← split])
    simpa [← split] using stops
  last := by
    intro a final
    have nonempty : (text.dropWhile blank).rdropWhile blank ≠ [] := by
      rintro empty
      simp [trim, empty] at final
    have kept := List.rdropWhile_last_not blank (text.dropWhile blank) nonempty
    rw [trim, List.getLast?_eq_getLast_of_ne_nil nonempty] at final
    rw [Option.mem_some_iff.mp final] at kept
    simpa using kept

end Trimming

/-! ## Splitting -/

/-- Split a text at its first separator. -/
def splitOnce (separates : α → Bool) : List α → Option (List α × List α)
  | [] => none
  | a :: rest =>
      if separates a then some ([], rest)
      else (splitOnce separates rest).map fun parts => (a :: parts.1, parts.2)

section Splitting

variable {separates : α → Bool}

theorem splitOnce_append {name : List α} (plain : ∀ a ∈ name, separates a = false) {a : α}
    (separator : separates a) (rest : List α) :
    splitOnce separates (name ++ a :: rest) = some (name, rest) := by
  induction name with
  | nil => rw [List.nil_append, splitOnce, if_pos separator]
  | cons b name ih =>
      rw [List.cons_append, splitOnce, plain b List.mem_cons_self,
        ih fun c mem => plain c (List.mem_cons_of_mem _ mem)]
      rfl

/-- The two halves of a split text, and the separator between them. -/
theorem of_splitOnce {text name rest : List α}
    (split : splitOnce separates text = some (name, rest)) :
    (∀ a ∈ name, separates a = false) ∧ ∃ a, separates a ∧ text = name ++ a :: rest := by
  induction text generalizing name with
  | nil => simp [splitOnce] at split
  | cons a tail ih =>
      rw [splitOnce] at split
      split_ifs at split with separator
      · obtain ⟨rfl, rfl⟩ := Prod.mk.inj (Option.some.inj split)
        exact ⟨fun _ mem => absurd mem List.not_mem_nil, a, separator, rfl⟩
      · obtain ⟨⟨before, after⟩, inner, both⟩ := Option.map_eq_some_iff.mp split
        obtain ⟨rfl, rfl⟩ := Prod.mk.inj both
        obtain ⟨plain, b, separator', rfl⟩ := ih inner
        refine ⟨fun c mem => ?_, b, separator', rfl⟩
        rcases List.mem_cons.mp mem with rfl | later
        · exact Bool.not_eq_true _ ▸ separator
        · exact plain c later

/-- What follows the first blank of a trimmed text does not vanish when it is trimmed. -/
theorem trim_rest_ne_nil {blank : α → Bool} {text name rest : List α} (trimmed : Trimmed blank text)
    (split : splitOnce blank text = some (name, rest)) : trim blank rest ≠ [] := by
  obtain ⟨-, separator, isBlank, rfl⟩ := of_splitOnce split
  have last := trimmed.last
  rw [List.getLast?_append_of_ne_nil _ (List.cons_ne_nil _ _)] at last
  cases rest with
  | nil => exact absurd (last separator rfl) (by simp [isBlank])
  | cons b rest =>
      rw [List.getLast?_cons_cons] at last
      exact trim_ne_nil (List.getLast_mem (List.cons_ne_nil b rest))
        (last _ (List.getLast?_eq_getLast_of_ne_nil _))

end Splitting

/-! ## Header values -/

/-- Visible ASCII, a blank or a tab. -/
def isVisible (c : Char) : Bool := (0x20 ≤ c.toNat ∧ c.toNat < 0x7F) ∨ c.toNat = 0x9

/-- The text of a header's value. -/
def headerText (value : String) : Option String :=
  if value.toList.all isVisible then some value else none

theorem headerText_of_visible {value : String} (visible : ∀ c ∈ value.toList, isVisible c) :
    headerText value = some value :=
  if_pos (List.all_eq_true.mpr visible)

end WaitingRoom.Text
