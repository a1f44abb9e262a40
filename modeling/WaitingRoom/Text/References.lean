import WaitingRoom.Text.Lines

/-!
# Relative references

A browser resolves a reference against the https address of a site. It first drops blanks at both
ends and tabs and line breaks everywhere, and it reads both slashes alike. A reference that starts
with a slash names the site's own host, unless another slash comes next once the breaks are gone
(`resolve_apart`, `resolve_own`). What an authority and what a scheme lead to is a parameter
(`Hosts`), and letters are anything with a code.
-/

set_option autoImplicit false

namespace WaitingRoom.Text

section Letters

variable {α : Type} (code : α → ℕ)

/-- What is dropped at both ends: C0 controls and the blank. -/
def isOuter (a : α) : Bool := code a ≤ 0x20

/-- What is dropped everywhere: tabs and line breaks. -/
def isBreak (a : α) : Bool := code a = 9 ∨ code a = 10 ∨ code a = 13

/-- The letters an https address reads as slashes. -/
def isSlash (a : α) : Bool := code a = 47 ∨ code a = 92

/-- What ends an authority. -/
def endsAuthority (a : α) : Bool := isSlash code a ∨ code a = 63 ∨ code a = 35

def isAlpha (a : α) : Bool := (65 ≤ code a ∧ code a ≤ 90) ∨ (97 ≤ code a ∧ code a ≤ 122)

/-- The letters of a scheme behind its first. -/
def inScheme (a : α) : Bool :=
  isAlpha code a ∨ (48 ≤ code a ∧ code a ≤ 57) ∨ code a = 43 ∨ code a = 45 ∨ code a = 46

/-- What is parsed of a reference. -/
def parsed (text : List α) : List α := (trim (isOuter code) text).filter fun a => !isBreak code a

/-- A scheme and what follows its colon. -/
def schemeOf (text : List α) : Option (List α × List α) :=
  let rest := text.dropWhile (inScheme code)
  if text.head?.any (isAlpha code) ∧ rest.head?.any (fun a => code a = 58) then
    some (text.takeWhile (inScheme code), rest.tail)
  else none

/-- What a reference names. -/
inductive Named (α : Type) where
  /-- An address with a scheme of its own. -/
  | absolute (scheme rest : List α)
  /-- An authority under the scheme of the site. -/
  | authority (text : List α)
  /-- Something of the site itself. -/
  | own

/-- Read what was parsed. -/
def named (text : List α) : Named α :=
  match schemeOf code text with
  | some (scheme, rest) => .absolute scheme rest
  | none =>
      match text with
      | first :: second :: rest =>
          if isSlash code first ∧ isSlash code second then
            .authority ((rest.dropWhile (isSlash code)).takeWhile fun a => !endsAuthority code a)
          else .own
      | _ => .own

end Letters

/-- What an authority, and what an address with a scheme, lead to, if anything. -/
structure Hosts (α σ : Type) where
  authority : List α → Option σ
  absolute : List α → List α → Option σ

/-- The origin a reference on a page of a site resolves to. -/
def resolve {α σ : Type} (code : α → ℕ) (hosts : Hosts α σ) (site : σ) (text : List α) : Option σ :=
  match named code (parsed code text) with
  | .absolute scheme rest => hosts.absolute scheme rest
  | .authority text => hosts.authority text
  | .own => some site

/-! ## References that start with a slash -/

section Rooted

variable {α σ : Type} {code : α → ℕ} {hosts : Hosts α σ} {site : σ}

/-- The end of a text is trimmed alike behind a letter that stays. -/
theorem rdropWhile_append_cons {p : α → Bool} {a : α} (stays : p a = false) (front rest : List α) :
    (front ++ a :: rest).rdropWhile p = front ++ a :: rest.rdropWhile p := by
  have behind : (rest.reverse ++ (a :: front.reverse)).dropWhile p
      = rest.reverse.dropWhile p ++ a :: front.reverse := by
    rw [List.dropWhile_append]
    split_ifs with empty
    · rw [List.isEmpty_iff.mp empty, List.nil_append, List.dropWhile_cons_of_neg (by simp [stays])]
    · rfl
  rw [List.rdropWhile, List.reverse_append, List.reverse_cons, List.append_assoc,
    List.singleton_append, behind, List.reverse_append, List.reverse_cons, List.reverse_reverse,
    List.append_assoc, List.singleton_append, List.rdropWhile]

/-- What is parsed behind a letter that stays. -/
def parsedBehind (code : α → ℕ) (rest : List α) : List α :=
  (rest.rdropWhile (isOuter code)).filter fun a => !isBreak code a

/-- The authority that a text behind two slashes starts with. -/
def authorityText (code : α → ℕ) (rest : List α) : List α :=
  ((parsedBehind code rest).dropWhile (isSlash code)).takeWhile fun a => !endsAuthority code a

theorem isOuter_of_isSlash {a : α} (slash : isSlash code a) : isOuter code a = false := by
  rw [isSlash, decide_eq_true_eq] at slash
  rw [isOuter, decide_eq_false_iff_not]
  omega

theorem isBreak_of_isSlash {a : α} (slash : isSlash code a) : isBreak code a = false := by
  rw [isSlash, decide_eq_true_eq] at slash
  rw [isBreak, decide_eq_false_iff_not]
  omega

theorem parsed_rooted {a : α} (slash : isSlash code a) (rest : List α) :
    parsed code (a :: rest) = a :: parsedBehind code rest := by
  have stays := isOuter_of_isSlash slash
  have trimmed := rdropWhile_append_cons stays [] rest
  rw [List.nil_append, List.nil_append] at trimmed
  rw [parsed, trim, List.dropWhile_cons_of_neg (by simp [stays]), trimmed,
    List.filter_cons_of_pos (by simp [isBreak_of_isSlash slash]), parsedBehind]

theorem schemeOf_rooted {a : α} (slash : isSlash code a) (rest : List α) :
    schemeOf code (a :: rest) = none := by
  rw [isSlash, decide_eq_true_eq] at slash
  have other : isAlpha code a = false := by
    rw [isAlpha, decide_eq_false_iff_not]
    omega
  rw [schemeOf, List.head?_cons, Option.any_some, other, if_neg (by simp)]

theorem named_apart {first mark : α} (slash : isSlash code first) (slash' : isSlash code mark)
    (rest : List α) : named code (first :: mark :: rest) =
      .authority ((rest.dropWhile (isSlash code)).takeWhile fun a => !endsAuthority code a) := by
  simp only [named, schemeOf_rooted slash]
  exact if_pos ⟨slash, slash'⟩

theorem named_own {first : α} (slash : isSlash code first) {rest : List α}
    (alone : ∀ next ∈ rest.head?, ¬ isSlash code next) : named code (first :: rest) = .own := by
  cases rest with
  | nil => simp only [named, schemeOf_rooted slash]
  | cons next rest =>
      simp only [named, schemeOf_rooted slash]
      exact if_neg fun both => alone next rfl both.2

/-- What is parsed behind breaks and a slash. -/
theorem parsedBehind_breaks {breaks : List α} (all : ∀ b ∈ breaks, isBreak code b) {mark : α}
    (slash : isSlash code mark) (behind : List α) :
    parsedBehind code (breaks ++ mark :: behind) = mark :: parsedBehind code behind := by
  have none : breaks.filter (fun a => !isBreak code a) = [] :=
    List.filter_eq_nil_iff.mpr fun b member => by simp [all b member]
  rw [parsedBehind, rdropWhile_append_cons (isOuter_of_isSlash slash), List.filter_append, none,
    List.nil_append, List.filter_cons_of_pos (by simp [isBreak_of_isSlash slash]), parsedBehind]

/-- **Two slashes with only breaks between them leave the site**, for the authority behind them. -/
theorem resolve_apart {first : α} (slash : isSlash code first) {breaks : List α}
    (all : ∀ b ∈ breaks, isBreak code b) {mark : α} (slash' : isSlash code mark) (behind : List α) :
    resolve code hosts site (first :: (breaks ++ mark :: behind))
      = hosts.authority (authorityText code behind) := by
  rw [resolve, parsed_rooted slash, parsedBehind_breaks all slash', named_apart slash slash',
    authorityText]

/-- **One slash stays on the site**, when what follows its breaks is no slash. -/
theorem resolve_own {first : α} (slash : isSlash code first) {rest : List α}
    (alone : ∀ breaks mark behind, rest = breaks ++ mark :: behind →
      (∀ b ∈ breaks, isBreak code b) → ¬ isSlash code mark) :
    resolve code hosts site (first :: rest) = some site := by
  have second : ∀ next ∈ (parsedBehind code rest).head?, ¬ isSlash code next := by
    intro next head
    obtain ⟨more, behind⟩ := List.head?_eq_some_iff.mp head
    obtain ⟨dropped, whole⟩ := List.rdropWhile_prefix (isOuter code) (l := rest)
    obtain ⟨breaks, later, kept, all, -, -⟩ := List.filter_eq_cons_iff.mp behind
    refine alone breaks next (later ++ dropped) ?_ fun b member => by simpa using all b member
    rw [← whole, kept, List.append_assoc, List.cons_append]
  rw [resolve, parsed_rooted slash, named_own slash second]

end Rooted

end WaitingRoom.Text
