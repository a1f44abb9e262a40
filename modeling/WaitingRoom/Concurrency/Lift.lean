import WaitingRoom.Concurrency.Program

/-!
# Programs over a larger interface

A program over one interface runs over any larger one that answers its calls (`Program.lift`). What
is true of every call of a program, whatever the answers and whatever it has seen
(`Program.Issues`), is true of every call of the lifted one (`Program.Issues.lift`). A program may be
lifted behind a history that makes each of its calls legal (`obeys_lift`). More generally each call
may be carried out by a program of its own (`Program.interpret`), or be left to an oracle (`Oracle`).
-/

set_option autoImplicit false

namespace WaitingRoom.Concurrency

/-- An interface inside another one: its calls, and how their answers are read. -/
structure Embedding (I J : Interface) where
  call : I.Call → J.Call
  answer : (request : I.Call) → J.Answer (call request) → I.Answer request

variable {I J : Interface} {α β : Type}

/-- A program over the larger interface. -/
def Program.lift (embedding : Embedding I J) : Program I α → Program J α
  | .done result => .done result
  | .call request next => .call (embedding.call request) fun answer =>
      (next (embedding.answer request answer)).lift embedding

/-- An answer to every call, by the calls that were answered before. -/
abbrev Oracle (I : Interface) := List (Exchange I) → (request : I.Call) → I.Answer request

/-- How the calls of one interface are carried out over another, by the calls that were answered
before. -/
abbrev Handler (I J : Interface) :=
  List (Exchange I) → (request : I.Call) → Program J (I.Answer request)

/-- A program whose calls are carried out over another interface. -/
def Program.interpret (handle : Handler I J) : List (Exchange I) → Program I α → Program J α
  | _, .done result => .done result
  | history, .call request next => do
      let answer ← handle history request
      (next answer).interpret handle (⟨request, answer⟩ :: history)

/-- Every call the program can make has a property. -/
def Program.Issues (property : I.Call → Prop) : Program I α → Prop
  | .done _ => True
  | .call request next => property request ∧ ∀ answer, (next answer).Issues property

namespace Program.Issues

variable {property property' : I.Call → Prop}

/-- Sequencing. -/
theorem bind {program : Program I α} {continuation : α → Program I β}
    (first : program.Issues property) (second : ∀ result, (continuation result).Issues property) :
    (program >>= continuation).Issues property := by
  induction program with
  | done result => exact second result
  | call request next ih => exact ⟨first.1, fun answer => ih answer (first.2 answer)⟩

/-- A loop that stops at the first error. -/
theorem tryEach {ε : Type} {body : α → β → Program I (Except ε β)}
    (round : ∀ x acc, (body x acc).Issues property) (all : List α) (acc : β) :
    (Program.tryEach body all acc).Issues property := by
  induction all generalizing acc with
  | nil => exact trivial
  | cons x rest ih =>
      refine (round x acc).bind fun result => ?_
      cases result with
      | ok acc => exact ih acc
      | error error => exact trivial

/-- The calls of a lifted program. -/
theorem lift {property : J.Call → Prop} {embedding : Embedding I J} {program : Program I α}
    (issues : program.Issues fun request => property (embedding.call request)) :
    (program.lift embedding).Issues property := by
  induction program with
  | done result => exact trivial
  | call request next ih => exact ⟨issues.1, fun answer => ih _ (issues.2 _)⟩

/-- The calls that carry out a program. -/
theorem interpret {property : J.Call → Prop} {handle : Handler I J}
    (handles : ∀ history request, (handle history request).Issues property)
    (history : List (Exchange I)) (program : Program I α) :
    (program.interpret handle history).Issues property := by
  induction program generalizing history with
  | done result => exact trivial
  | call request next ih => exact (handles history request).bind fun answer => ih answer _

theorem mono {program : Program I α} (issues : program.Issues property)
    (weaker : ∀ request, property request → property' request) : program.Issues property' := by
  induction program with
  | done result => exact trivial
  | call request next ih => exact ⟨weaker request issues.1, fun answer => ih answer (issues.2 answer)⟩

/-- A protocol that allows such calls after whatever comes on top of a history. -/
theorem obeys_from {legal : List (Exchange I) → I.Call → Prop} {program : Program I α}
    (issues : program.Issues property) {history : List (Exchange I)}
    (lawful : ∀ newer request, property request → legal (newer ++ history) request) :
    Obeys legal (fun later _ => history <:+ later) history program := by
  suffices from_here : ∀ newer, Obeys legal (fun later _ => history <:+ later) (newer ++ history)
      program from from_here []
  intro newer
  induction program generalizing newer with
  | done result => exact List.suffix_append newer history
  | call request next ih =>
      exact ⟨lawful newer request issues.1, fun answer => ih answer (issues.2 answer) (_ :: newer)⟩

/-- A protocol that asks for the property alone. -/
theorem obeys {program : Program I α} (issues : program.Issues property)
    (history : List (Exchange I)) :
    Obeys (fun _ => property) (fun _ _ => True) history program := by
  induction program generalizing history with
  | done result => exact trivial
  | call request next ih => exact ⟨issues.1, fun answer => ih answer (issues.2 answer) _⟩

end Program.Issues

/-- A call that a program can make. -/
inductive Program.Makes : Program I α → I.Call → Prop where
  | here {request : I.Call} {next : I.Answer request → Program I α} :
      Program.Makes (.call request next) request
  | later {request call : I.Call} {next : I.Answer request → Program I α}
      (answer : I.Answer request) (makes : Program.Makes (next answer) call) :
      Program.Makes (.call request next) call

/-- A lifted program obeys a protocol that allows each of its calls after the history it starts with,
whatever comes on top. -/
theorem obeys_lift {legal : List (Exchange J) → J.Call → Prop} {embedding : Embedding I J}
    {program : Program I α} {history : List (Exchange J)}
    (lawful : ∀ newer call, program.Makes call → legal (newer ++ history) (embedding.call call)) :
    Obeys legal (fun _ _ => True) history (program.lift embedding) := by
  suffices from_here : ∀ newer, Obeys legal (fun _ _ => True) (newer ++ history)
      (program.lift embedding) from from_here []
  intro newer
  induction program generalizing newer with
  | done result => exact trivial
  | call request next ih =>
      refine ⟨lawful newer request .here, fun answer => ?_⟩
      exact ih (embedding.answer request answer)
        (fun newer call makes => lawful newer call (.later _ makes)) (_ :: newer)

end WaitingRoom.Concurrency
