import WaitingRoom.Text.Lines

/-!
# Lexemes

A text is cut into lexemes: a symbol is one, a run of other letters is one, and blanks only
separate. The lexemes of a text are those of its parts wherever it is cut at the end of a word
(`lexemes_append`), and a word is its own lexeme (`lexemes_word`). Items that are separated by a
lexeme are read back one by one (`readItems_separated`).
-/

set_option autoImplicit false

namespace WaitingRoom.Text

variable {α : Type}

/-- What separates lexemes, and which letters are lexemes by themselves. -/
structure Lexicon (α : Type) where
  blank : α → Bool
  symbol : α → Bool

/-- A letter that continues a word. -/
def Lexicon.inWord (lexicon : Lexicon α) (a : α) : Bool := !lexicon.blank a && !lexicon.symbol a

/-- Put a letter in front of a text's lexemes: in the first one if that goes on, or before it. -/
def Lexicon.push (lexicon : Lexicon α) (a : α) (rest : List α) (others : List (List α)) :
    List (List α) :=
  if rest.head?.any lexicon.inWord then consLine a others else [a] :: others

/-- The lexemes of a text. -/
def Lexicon.lexemes (lexicon : Lexicon α) : List α → List (List α)
  | [] => []
  | a :: rest =>
      if lexicon.blank a then lexicon.lexemes rest
      else if lexicon.symbol a then [a] :: lexicon.lexemes rest
      else lexicon.push a rest (lexicon.lexemes rest)

namespace Lexicon

variable {lexicon : Lexicon α}

/-- A letter of a word begins a lexeme. -/
theorem exists_lexeme {a : α} (inWord : lexicon.inWord a) (rest : List α) :
    ∃ word more, lexicon.lexemes (a :: rest) = word :: more := by
  rw [Lexicon.inWord, Bool.and_eq_true, Bool.not_eq_true', Bool.not_eq_true'] at inWord
  rw [lexemes, if_neg (by simp [inWord.1]), if_neg (by simp [inWord.2]), push]
  split_ifs
  · cases lexicon.lexemes rest with
    | nil => exact ⟨_, _, rfl⟩
    | cons word more => exact ⟨_, _, rfl⟩
  · exact ⟨_, _, rfl⟩

/-- A text cut where no word goes on. -/
theorem lexemes_append {text rest : List α}
    (cut : text.getLast?.any lexicon.inWord = false ∨ rest.head?.any lexicon.inWord = false) :
    lexicon.lexemes (text ++ rest) = lexicon.lexemes text ++ lexicon.lexemes rest := by
  induction text with
  | nil => rfl
  | cons a text ih =>
      cases text with
      | nil =>
          rw [List.singleton_append, lexemes, lexemes]
          split_ifs with blank symbol
          · rfl
          · rfl
          · have inWord : lexicon.inWord a := by simp [Lexicon.inWord, blank, symbol]
            rcases cut with left | right
            · exact absurd inWord (by simpa using left)
            · rw [push, if_neg (by simp [right])]
              rfl
      | cons b text =>
          rw [List.getLast?_cons_cons] at cut
          rw [List.cons_append, lexemes, lexemes, ih cut]
          split_ifs
          · rfl
          · rfl
          · rw [push, push, List.cons_append, List.head?_cons, List.head?_cons]
            split_ifs with goesOn
            · -- the next letter is in a word, so it has a lexeme to go into
              obtain ⟨word, more, found⟩ := exists_lexeme goesOn text
              rw [found]
              rfl
            · rfl

/-- A word is one lexeme. -/
theorem lexemes_word {word : List α} (nonempty : word ≠ [])
    (inner : ∀ a ∈ word, lexicon.inWord a) : lexicon.lexemes word = [word] := by
  induction word with
  | nil => exact absurd rfl nonempty
  | cons a rest ih =>
      have here := inner a List.mem_cons_self
      rw [inWord, Bool.and_eq_true, Bool.not_eq_true', Bool.not_eq_true'] at here
      rw [lexemes, if_neg (by simp [here.1]), if_neg (by simp [here.2]), push]
      cases rest with
      | nil => rfl
      | cons b more =>
          rw [List.head?_cons, Option.any_some,
            if_pos (inner b (List.mem_cons_of_mem _ List.mem_cons_self)),
            ih (List.cons_ne_nil _ _) fun c mem => inner c (List.mem_cons_of_mem _ mem)]
          rfl

end Lexicon

/-! ## Separated items -/

section Items

variable {τ β ι : Type} [DecidableEq τ]

/-- Items with a token between each two. -/
def separated (comma : τ) : List (List τ) → List τ
  | [] => []
  | [item] => item
  | item :: other :: items => item ++ comma :: separated comma (other :: items)

/-- Read items as long as a separator follows, at most `rounds` of them. -/
def readItems (item : List τ → Option (β × List τ)) (comma : τ) :
    ℕ → List τ → Option (List β × List τ)
  | 0, _ => none
  | rounds + 1, tokens =>
      (item tokens).bind fun read =>
        if read.2.head? = some comma then
          (readItems item comma rounds read.2.tail).map fun later => (read.1 :: later.1, later.2)
        else some ([read.1], read.2)

omit [DecidableEq τ] in
theorem mem_separated {comma token : τ} (other : token ≠ comma) (items : List (List τ)) :
    token ∈ separated comma items ↔ ∃ item ∈ items, token ∈ item := by
  fun_induction separated comma items with
  | case1 => simp
  | case2 item => simp
  | case3 item next items ih =>
      rw [List.mem_append, List.mem_cons, ih]
      simp [other]

omit [DecidableEq τ] in
theorem length_le_separated {comma : τ} {items : List (List τ)}
    (nonempty : ∀ item ∈ items, item ≠ []) : items.length ≤ (separated comma items).length := by
  fun_induction separated comma items with
  | case1 => exact Nat.le_refl _
  | case2 item => exact List.length_pos_iff.mpr (nonempty item List.mem_cons_self)
  | case3 item next items ih =>
      have later := ih fun item mem => nonempty item (List.mem_cons_of_mem _ mem)
      rw [List.length_append, List.length_cons, List.length_cons (a := comma)]
      omega

/-- **Items that were written are read back**, up to what follows them. -/
theorem readItems_separated {item : List τ → Option (β × List τ)} {comma : τ} {write : ι → List τ}
    {value : ι → β} {sources : List ι} {after : List τ}
    (reads : ∀ source ∈ sources, ∀ rest, item (write source ++ rest) = some (value source, rest))
    (nonempty : sources ≠ []) (ends : after.head? ≠ some comma) {rounds : ℕ}
    (enough : sources.length ≤ rounds) :
    readItems item comma rounds (separated comma (sources.map write) ++ after)
      = some (sources.map value, after) := by
  induction sources generalizing rounds with
  | nil => exact absurd rfl nonempty
  | cons source sources ih =>
      obtain ⟨rounds, rfl⟩ := Nat.exists_eq_add_of_le' (Nat.one_le_of_lt enough)
      have here := reads source List.mem_cons_self
      cases sources with
      | nil =>
          rw [List.map_singleton, separated, readItems, here, Option.bind_some, if_neg ends]
          rfl
      | cons next sources =>
          have later := ih (fun source mem => reads source (List.mem_cons_of_mem _ mem))
            (List.cons_ne_nil _ _) (Nat.le_of_succ_le_succ enough)
          rw [List.map_cons] at later
          rw [List.map_cons, List.map_cons, separated, List.append_assoc, List.cons_append,
            readItems, here, Option.bind_some, List.head?_cons, if_pos rfl, List.tail_cons, later]
          rfl

end Items

end WaitingRoom.Text
