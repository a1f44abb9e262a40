import WaitingRoom.Text.Stable
import Mathlib.Data.List.Infix

/-!
# Three rewriting steps

A run of one letter is squeezed to one (`squeeze`), a letter between two of another is dropped with
one of them (`contract`), and the end of a text is replaced (`replaceSuffix`). The first two only
drop letters, so repeating them (`tidy`) ends (`tidy_shortens`). Each commutes with a renaming that
keeps the letters it looks at apart from the others, and with the squeezing of a letter it does not
look at.
-/

set_option autoImplicit false

namespace WaitingRoom.Text

variable {α β : Type} [DecidableEq α] [DecidableEq β]

/-- Squeeze every run of a letter to one. -/
def squeeze (x : α) : List α → List α
  | [] => []
  | a :: rest => if a = x ∧ rest.head? = some x then squeeze x rest else a :: squeeze x rest

/-- Replace every `x y x` by `x`, from the left, looking at no letter twice. -/
def contract (x y : α) : List α → List α
  | a :: b :: c :: rest =>
      if a = x ∧ b = y ∧ c = x then x :: contract x y rest else a :: contract x y (b :: c :: rest)
  | short => short

/-- Replace the end of a text, if it is the given one. -/
def replaceSuffix (suffix replacement text : List α) : List α :=
  if suffix <:+ text then text.take (text.length - suffix.length) ++ replacement else text

/-! ## Steps that drop letters -/

omit [DecidableEq α] in
/-- A step that only drops letters shortens what it changes. -/
theorem shortens_of_sublist {step : List α → List α} (drops : ∀ text, (step text).Sublist text) :
    Shortens step := by
  intro text
  rcases Nat.lt_or_ge (step text).length text.length with shorter | same
  · exact .inr shorter
  · exact .inl ((drops text).eq_of_length_le same)

theorem squeeze_sublist (x : α) (text : List α) : (squeeze x text).Sublist text := by
  induction text with
  | nil => exact List.Sublist.refl _
  | cons a rest ih =>
      rw [squeeze]
      split_ifs
      · exact ih.cons a
      · exact ih.cons_cons a

theorem contract_sublist (x y : α) (text : List α) : (contract x y text).Sublist text := by
  fun_induction contract x y text with
  | case1 a b c rest same ih =>
      obtain ⟨rfl, rfl, rfl⟩ := same
      exact ((ih.cons _).cons _).cons_cons _
  | case2 a b c rest other ih => exact ih.cons_cons a
  | case3 short => exact List.Sublist.refl _

/-! ## Squeezing -/

@[simp] theorem head?_squeeze (x : α) (text : List α) : (squeeze x text).head? = text.head? := by
  induction text with
  | nil => rfl
  | cons a rest ih =>
      rw [squeeze]
      split_ifs with run
      · rw [ih, run.2, List.head?_cons, run.1]
      · rfl

theorem squeeze_cons_of_ne {x a : α} (other : a ≠ x) (rest : List α) :
    squeeze x (a :: rest) = a :: squeeze x rest := if_neg fun run => other run.1

theorem squeeze_cons_cons (x : α) (rest : List α) :
    squeeze x (x :: x :: rest) = squeeze x (x :: rest) := if_pos ⟨rfl, rfl⟩

/-- A text without the letter is left alone. -/
theorem squeeze_of_not_mem {x : α} {text : List α} (absent : x ∉ text) : squeeze x text = text := by
  induction text with
  | nil => rfl
  | cons a rest ih =>
      obtain ⟨other, later⟩ := List.ne_and_not_mem_of_not_mem_cons absent
      rw [squeeze_cons_of_ne other.symm, ih later]

/-- Squeezing keeps the letter. -/
theorem mem_squeeze {x : α} {text : List α} (member : x ∈ text) : x ∈ squeeze x text := by
  induction text with
  | nil => cases member
  | cons a rest ih =>
      rw [squeeze]
      split_ifs with run
      · exact ih (List.mem_of_mem_head? run.2)
      · rcases List.mem_cons.mp member with rfl | later
        · exact List.mem_cons_self
        · exact List.mem_cons_of_mem _ (ih later)

/-- A renaming that keeps the letter apart commutes with squeezing it. -/
theorem map_squeeze {f : α → β} {x : α} (apart : ∀ a, f a = f x ↔ a = x) (text : List α) :
    (squeeze x text).map f = squeeze (f x) (text.map f) := by
  induction text with
  | nil => rfl
  | cons a rest ih =>
      have head : (rest.map f).head? = some (f x) ↔ rest.head? = some x := by
        cases rest <;> simp [apart]
      simp only [squeeze, List.map_cons, apart, head]
      split_ifs
      · exact ih
      · rw [List.map_cons, ih]

/-- Two squeezings commute. -/
theorem squeeze_comm {x y : α} (other : x ≠ y) (text : List α) :
    squeeze x (squeeze y text) = squeeze y (squeeze x text) := by
  induction text with
  | nil => rfl
  | cons a rest ih =>
      by_cases isX : a = x
      · subst isX
        rw [squeeze_cons_of_ne other]
        simp only [squeeze, head?_squeeze]
        split_ifs
        · exact ih
        · rw [squeeze_cons_of_ne other, ih]
      · by_cases isY : a = y
        · subst isY
          rw [squeeze_cons_of_ne isX]
          simp only [squeeze, head?_squeeze]
          split_ifs
          · exact ih
          · rw [squeeze_cons_of_ne isX, ih]
        · rw [squeeze_cons_of_ne isX, squeeze_cons_of_ne isY, squeeze_cons_of_ne isX,
            squeeze_cons_of_ne isY, ih]

/-- Squeezing keeps what a text without the letter starts with. -/
theorem prefix_squeeze {x : α} {start : List α} (absent : x ∉ start) (text : List α) :
    start <+: squeeze x text ↔ start <+: text := by
  induction start generalizing text with
  | nil => simp
  | cons a start ih =>
      obtain ⟨other, later⟩ := List.ne_and_not_mem_of_not_mem_cons absent
      cases text with
      | nil => rfl
      | cons b rest =>
          by_cases isX : b = x
          · subst isX
            have head : ∀ text : List α, text.head? = some b → ¬ a :: start <+: text := by
              rintro text first ⟨tail, rfl⟩
              exact other (Option.some.inj first).symm
            exact iff_of_false (head _ (by rw [head?_squeeze, List.head?_cons])) (head _ rfl)
          · rw [squeeze_cons_of_ne isX, List.cons_prefix_cons, List.cons_prefix_cons, ih later]

/-- Squeezing leaves an end without the letter alone. -/
theorem squeeze_append {x : α} {tail : List α} (absent : x ∉ tail) (text : List α) :
    squeeze x (text ++ tail) = squeeze x text ++ tail := by
  induction text with
  | nil => exact squeeze_of_not_mem absent
  | cons a rest ih =>
      have head : (rest ++ tail).head? = some x ↔ rest.head? = some x := by
        cases rest with
        | nil =>
            refine iff_of_false (fun first => absent ?_) (by simp)
            exact List.mem_of_mem_head? first
        | cons b rest => simp
      simp only [squeeze, List.cons_append, head]
      split_ifs
      · exact ih
      · rw [ih, List.cons_append]

theorem suffix_squeeze {x : α} {tail : List α} (absent : x ∉ tail) (text : List α) :
    tail <:+ squeeze x text ↔ tail <:+ text := by
  constructor
  · intro ends
    induction text with
    | nil => exact ends
    | cons a rest ih =>
        rw [squeeze] at ends
        split_ifs at ends
        · exact (ih ends).trans (List.suffix_cons a rest)
        · rcases List.suffix_cons_iff.mp ends with whole | ends
          · have absent : x ∉ rest := fun member =>
              absent (whole ▸ List.mem_cons_of_mem a (mem_squeeze member))
            rw [whole, squeeze_of_not_mem absent]
          · exact (ih ends).trans (List.suffix_cons a rest)
  · rintro ⟨before, rfl⟩
    exact ⟨squeeze x before, (squeeze_append absent before).symm⟩

/-! ## Contracting -/

theorem contract_cons_of_not {x y a : α} {rest : List α} (other : ¬ (a = x ∧ [y, x] <+: rest)) :
    contract x y (a :: rest) = a :: contract x y rest := by
  match rest with
  | [] => rfl
  | [b] => rfl
  | b :: c :: rest =>
      rw [contract, if_neg]
      rintro ⟨isX, rfl, rfl⟩
      exact other ⟨isX, rest, rfl⟩

theorem contract_match (x y : α) (rest : List α) :
    contract x y (x :: y :: x :: rest) = x :: contract x y rest := if_pos ⟨rfl, rfl, rfl⟩

@[simp] theorem head?_contract (x y : α) (text : List α) :
    (contract x y text).head? = text.head? := by
  fun_induction contract x y text with
  | case1 a b c rest same ih => rw [same.1]; rfl
  | case2 a b c rest other ih => rfl
  | case3 short => rfl

theorem map_contract {f : α → β} {x y : α} (apartX : ∀ a, f a = f x ↔ a = x)
    (apartY : ∀ a, f a = f y ↔ a = y) (text : List α) :
    (contract x y text).map f = contract (f x) (f y) (text.map f) := by
  fun_induction contract x y text with
  | case1 a b c rest same ih =>
      obtain ⟨rfl, rfl, rfl⟩ := same
      rw [List.map_cons, ih, List.map_cons, List.map_cons, List.map_cons, contract_match]
  | case2 a b c rest other ih =>
      have other' : ¬ (f a = f x ∧ f b = f y ∧ f c = f x) := by rwa [apartX, apartY, apartX]
      rw [List.map_cons, ih]
      exact (if_neg other').symm
  | case3 short long =>
      match short, long with
      | [], _ => rfl
      | [a], _ => rfl
      | [a, b], _ => rfl
      | a :: b :: c :: rest, long => exact absurd rfl (long a b c rest)

/-- Contracting commutes with the squeezing of another letter. -/
theorem squeeze_contract {x y z : α} (otherX : x ≠ z) (otherY : y ≠ z) (text : List α) :
    squeeze z (contract x y text) = contract x y (squeeze z text) := by
  fun_induction contract x y text with
  | case1 a b c rest same ih =>
      obtain ⟨rfl, rfl, rfl⟩ := same
      rw [squeeze_cons_of_ne otherX, squeeze_cons_of_ne otherX, squeeze_cons_of_ne otherY,
        squeeze_cons_of_ne otherX, contract_match, ih]
  | case2 a b c rest other ih =>
      have head : (contract x y (b :: c :: rest)).head? = (b :: c :: rest).head? := head?_contract ..
      simp only [squeeze.eq_2 z a, head]
      split_ifs
      · exact ih
      · rw [ih, contract_cons_of_not]
        rintro ⟨isX, starts⟩
        have absent : z ∉ [y, x] := by simp [otherX.symm, otherY.symm]
        obtain ⟨tail, whole⟩ := (prefix_squeeze absent (b :: c :: rest)).mp starts
        simp only [List.cons_append, List.nil_append, List.cons.injEq] at whole
        exact other ⟨isX, whole.1.symm, whole.2.1.symm⟩
  | case3 short long =>
      match short, long with
      | [], _ => rfl
      | [a], _ | [a, b], _ =>
          simp only [squeeze]
          split_ifs <;> rfl
      | a :: b :: c :: rest, long => exact absurd rfl (long a b c rest)

/-! ## Tidying -/

/-- Squeeze a letter, then drop another between two of it. -/
def tidy (x y : α) (text : List α) : List α := contract x y (squeeze x text)

theorem tidy_shortens (x y : α) : Shortens (tidy x y) :=
  shortens_of_sublist fun text => (contract_sublist x y _).trans (squeeze_sublist x text)

theorem map_tidy {f : α → β} {x y : α} (apartX : ∀ a, f a = f x ↔ a = x)
    (apartY : ∀ a, f a = f y ↔ a = y) (text : List α) :
    (tidy x y text).map f = tidy (f x) (f y) (text.map f) := by
  rw [tidy, map_contract apartX apartY, map_squeeze apartX, tidy]

theorem squeeze_tidy {x y z : α} (otherX : x ≠ z) (otherY : y ≠ z) (text : List α) :
    squeeze z (tidy x y text) = tidy x y (squeeze z text) := by
  rw [tidy, squeeze_contract otherX otherY, squeeze_comm otherX.symm, tidy]

/-! ## Replacing an end -/

theorem replaceSuffix_append (suffix replacement before : List α) :
    replaceSuffix suffix replacement (before ++ suffix) = before ++ replacement := by
  rw [replaceSuffix, if_pos ⟨before, rfl⟩, List.length_append, Nat.add_sub_cancel, List.take_left]

theorem replaceSuffix_of_not {suffix text : List α} (other : ¬ suffix <:+ text)
    (replacement : List α) : replaceSuffix suffix replacement text = text := if_neg other

theorem squeeze_replaceSuffix {x : α} {suffix replacement : List α} (absent : x ∉ suffix)
    (absent' : x ∉ replacement) (text : List α) :
    squeeze x (replaceSuffix suffix replacement text) =
      replaceSuffix suffix replacement (squeeze x text) := by
  by_cases ends : suffix <:+ text
  · obtain ⟨before, rfl⟩ := ends
    rw [replaceSuffix_append, squeeze_append absent, squeeze_append absent', replaceSuffix_append]
  · rw [replaceSuffix_of_not ends, replaceSuffix_of_not]
    rwa [suffix_squeeze absent]

omit [DecidableEq α] [DecidableEq β] in
/-- A renaming that keeps some letters apart is injective on texts of them. -/
theorem eq_of_map_eq {f : α → β} {text letters : List α} (apart : ∀ x ∈ letters, ∀ a, f a = f x → a = x)
    (same : text.map f = letters.map f) : text = letters := by
  induction letters generalizing text with
  | nil => exact List.map_eq_nil_iff.mp same
  | cons x letters ih =>
      obtain ⟨a, rest, rfl, first, others⟩ := List.map_eq_cons_iff.mp same
      rw [apart x List.mem_cons_self a first,
        ih (fun y member => apart y (List.mem_cons_of_mem x member)) others]

omit [DecidableEq α] [DecidableEq β] in
theorem prefix_map {f : α → β} {start : List α} (apart : ∀ x ∈ start, ∀ a, f a = f x → a = x)
    (text : List α) : start.map f <+: text.map f ↔ start <+: text := by
  constructor
  · rintro ⟨tail, whole⟩
    obtain ⟨before, after, rfl, same, -⟩ := List.map_eq_append_iff.mp whole.symm
    rw [eq_of_map_eq apart same]
    exact List.prefix_append start after
  · rintro ⟨tail, rfl⟩
    exact ⟨tail.map f, List.map_append.symm⟩

omit [DecidableEq α] [DecidableEq β] in
theorem suffix_map {f : α → β} {tail : List α} (apart : ∀ x ∈ tail, ∀ a, f a = f x → a = x)
    (text : List α) : tail.map f <:+ text.map f ↔ tail <:+ text := by
  constructor
  · rintro ⟨before, whole⟩
    obtain ⟨first, last, rfl, -, same⟩ := List.map_eq_append_iff.mp whole.symm
    rw [eq_of_map_eq apart same]
    exact List.suffix_append first tail
  · rintro ⟨before, rfl⟩
    exact ⟨before.map f, List.map_append.symm⟩

theorem map_replaceSuffix {f : α → β} {suffix : List α}
    (apart : ∀ x ∈ suffix, ∀ a, f a = f x → a = x) (replacement text : List α) :
    (replaceSuffix suffix replacement text).map f =
      replaceSuffix (suffix.map f) (replacement.map f) (text.map f) := by
  by_cases ends : suffix <:+ text
  · obtain ⟨before, rfl⟩ := ends
    rw [replaceSuffix_append, List.map_append, List.map_append, replaceSuffix_append]
  · rw [replaceSuffix_of_not ends, replaceSuffix_of_not]
    rwa [suffix_map apart]

end WaitingRoom.Text
