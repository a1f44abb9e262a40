import Mathlib.Data.Nat.Notation
import Mathlib.Logic.Basic

/-!
# Programs that talk to a store

A program over an interface either returns a result or issues a call and continues with
the answer. A call is the only way it touches the world, so the world may run any number
of other programs between two calls of this one.

The answers a program has received so far are its history, latest first. `Obeys` says
that every call a program can ever issue is legal after the history it has at that moment,
and that every result it can return is final for the history it returns with. It is proved
once per program, over arbitrary answers, without a word about the store or about the
other programs. The rules are `Obeys.bind` for sequencing, `Obeys.mono` for weakening, and
`Obeys.forEach` and `Obeys.tryEach` for the two kinds of loop, with an invariant over the
elements the loop has gone through.
-/

set_option autoImplicit false

namespace WaitingRoom.Concurrency

/-- The calls a program may issue, and what each is answered with. -/
structure Interface where
  Call : Type
  Answer : Call → Type

/-- A program that issues calls of an interface and returns an `α`. -/
inductive Program (I : Interface) (α : Type) : Type where
  | done (result : α)
  | call (request : I.Call) (next : I.Answer request → Program I α)

/-- One answered call. -/
structure Exchange (I : Interface) where
  call : I.Call
  answer : I.Answer call

namespace Program

variable {I : Interface} {α β : Type}

/-- Run one program, then another on its result. -/
protected def bind : Program I α → (α → Program I β) → Program I β
  | .done result, continuation => continuation result
  | .call request next, continuation =>
      .call request fun answer => (next answer).bind continuation

instance : Monad (Program I) where
  pure := .done
  bind := Program.bind

/-- Issue one call and return its answer. -/
def ask (request : I.Call) : Program I (I.Answer request) := .call request .done

@[simp] theorem pure_eq (result : α) : (pure result : Program I α) = .done result := rfl

@[simp] theorem done_bind (result : α) (continuation : α → Program I β) :
    (Program.done result >>= continuation) = continuation result := rfl

@[simp] theorem call_bind (request : I.Call) (next : I.Answer request → Program I α)
    (continuation : α → Program I β) :
    (Program.call request next >>= continuation) =
      .call request fun answer => next answer >>= continuation := rfl

@[simp] theorem ask_bind (request : I.Call) (continuation : I.Answer request → Program I β) :
    (ask request >>= continuation) = .call request continuation := rfl

/-- A loop over a list with an index and an accumulator. -/
def forEach (body : ℕ → α → β → Program I β) : List α → ℕ → β → Program I β
  | [], _, acc => .done acc
  | x :: rest, offset, acc => body offset x acc >>= forEach body rest (offset + 1)

/-- A loop over a list that stops at the first error. -/
def tryEach {ε : Type} (body : α → β → Program I (Except ε β)) :
    List α → β → Program I (Except ε β)
  | [], acc => .done (.ok acc)
  | x :: rest, acc => body x acc >>= fun
      | .ok acc => tryEach body rest acc
      | .error error => .done (.error error)

end Program

/-! ## Legal calls and final results -/

section Obeys

variable {I : Interface} {α β : Type}

/-- Every call the program can issue is legal after the history it then has, and every
result it can return is final for the history it then has. -/
def Obeys (legal : List (Exchange I) → I.Call → Prop) (final : List (Exchange I) → α → Prop) :
    List (Exchange I) → Program I α → Prop
  | history, .done result => final history result
  | history, .call request next =>
      legal history request ∧
        ∀ answer, Obeys legal final (⟨request, answer⟩ :: history) (next answer)

variable {legal legal' : List (Exchange I) → I.Call → Prop}
  {final final' : List (Exchange I) → α → Prop} {history : List (Exchange I)}

@[simp] theorem obeys_done {result : α} :
    Obeys legal final history (.done result) ↔ final history result := Iff.rfl

@[simp] theorem obeys_call {request : I.Call} {next : I.Answer request → Program I α} :
    Obeys legal final history (.call request next) ↔
      legal history request ∧
        ∀ answer, Obeys legal final (⟨request, answer⟩ :: history) (next answer) := Iff.rfl

/-- Two protocols at once. -/
theorem Obeys.and {program : Program I α} (left : Obeys legal final history program)
    (right : Obeys legal' final' history program) :
    Obeys (fun later request => legal later request ∧ legal' later request)
      (fun later result => final later result ∧ final' later result) history program := by
  induction program generalizing history with
  | done result => exact ⟨left, right⟩
  | call request next ih =>
      exact ⟨⟨left.1, right.1⟩, fun answer => ih answer (left.2 answer) (right.2 answer)⟩

/-- Sequencing: what the first program returns with is where the second starts. -/
theorem Obeys.bind {final' : List (Exchange I) → β → Prop} {program : Program I α}
    {continuation : α → Program I β} (first : Obeys legal final history program)
    (second : ∀ later result, final later result →
      Obeys legal final' later (continuation result)) :
    Obeys legal final' history (program >>= continuation) := by
  induction program generalizing history with
  | done result => exact second history result first
  | call request next ih =>
      rw [Program.call_bind, obeys_call]
      rw [obeys_call] at first
      exact ⟨first.1, fun answer => ih answer (first.2 answer)⟩

/-- Weakening of the legal calls and of the final results. -/
theorem Obeys.mono {program : Program I α} (obeys : Obeys legal final history program)
    (legalMono : ∀ later request, legal later request → legal' later request)
    (finalMono : ∀ later result, final later result → final' later result) :
    Obeys legal' final' history program := by
  induction program generalizing history with
  | done result => exact finalMono history result obeys
  | call request next ih =>
      rw [obeys_call] at obeys ⊢
      exact ⟨legalMono _ _ obeys.1, fun answer => ih answer (obeys.2 answer)⟩

/-- **The loop rule**: what holds before the loop and is kept by one round of it holds after. -/
theorem Obeys.forEach {body : ℕ → α → β → Program I β} {all : List α} {acc : β}
    (inv : List α → List (Exchange I) → β → Prop) (start : inv [] history acc)
    (round : ∀ past x rest later acc, all = past ++ x :: rest → inv past later acc →
      Obeys legal (inv (past ++ [x])) later (body past.length x acc)) :
    Obeys legal (inv all) history (Program.forEach body all 0 acc) := by
  suffices loop : ∀ rest past later acc, all = past ++ rest → inv past later acc →
      Obeys legal (inv all) later (Program.forEach body rest past.length acc) from
    loop all [] history acc rfl start
  intro rest
  induction rest with
  | nil =>
      intro past later acc whole holds
      rw [List.append_nil] at whole
      subst whole
      exact holds
  | cons x rest ih =>
      intro past later acc whole holds
      refine (round past x rest later acc whole holds).bind fun last acc kept => ?_
      have next := ih (past ++ [x]) last acc (by rw [whole, List.append_assoc]; rfl) kept
      rwa [List.length_append, List.length_singleton] at next

/-- A program that started with one history has returned with a later one. -/
inductive Returns : Program I α → List (Exchange I) → List (Exchange I) → α → Prop where
  | done (result : α) (history : List (Exchange I)) : Returns (.done result) history history result
  | call {request : I.Call} {next : I.Answer request → Program I α} {start later : List (Exchange I)}
      {result : α} (answer : I.Answer request)
      (rest : Returns (next answer) (⟨request, answer⟩ :: start) later result) :
      Returns (.call request next) start later result

/-- What a program returns when every call is answered by its own fixed answer. -/
def Program.play (answers : (call : I.Call) → I.Answer call) : Program I α → α
  | .done result => result
  | .call request next => (next (answers request)).play answers

/-- A program can return what it returns under fixed answers. -/
theorem Program.exists_returns (answers : (call : I.Call) → I.Answer call) (program : Program I α)
    (start : List (Exchange I)) : ∃ later, Returns program start later (program.play answers) := by
  induction program generalizing start with
  | done result => exact ⟨start, .done result start⟩
  | call request next ih =>
      obtain ⟨later, rest⟩ := ih (answers request) (⟨request, answers request⟩ :: start)
      exact ⟨later, .call (answers request) rest⟩

/-- What a program returned is final for the history it returned with. -/
theorem Obeys.returned {program : Program I α} {later : List (Exchange I)} {result : α}
    (obeys : Obeys legal final history program) (returned : Returns program history later result) :
    final later result := by
  induction returned with
  | done result history => exact obeys
  | call answer _ ih => exact ih (obeys.2 answer)

/-- A program adds to the history it started with. -/
theorem Returns.suffix {program : Program I α} {start later : List (Exchange I)} {result : α}
    (returned : Returns program start later result) : ∃ newer, later = newer ++ start := by
  induction returned with
  | done result history => exact ⟨[], rfl⟩
  | @call request next start later result answer rest ih =>
      obtain ⟨newer, rfl⟩ := ih
      exact ⟨newer ++ [⟨request, answer⟩], by simp⟩

/-- Every call that a program made was legal after the history it then had. -/
theorem Obeys.legal_of_mem {program : Program I α} {later : List (Exchange I)} {result : α}
    (obeys : Obeys legal final history program) (returned : Returns program history later result)
    {exchange : Exchange I} (member : exchange ∈ later) :
    exchange ∈ history ∨
      ∃ newer older, later = newer ++ exchange :: older ∧ legal older exchange.call := by
  induction returned with
  | done result history => exact .inl member
  | @call request next start later result answer rest ih =>
      rcases ih (obeys.2 answer) member with started | found
      · rcases List.mem_cons.mp started with rfl | before
        · obtain ⟨newer, whole⟩ := rest.suffix
          exact .inr ⟨newer, start, whole, obeys.1⟩
        · exact .inl before
      · exact .inr found

/-- Every program obeys the protocol that asks nothing. -/
theorem obeys_trivial (program : Program I α) (history : List (Exchange I)) :
    Obeys (fun _ _ => True) (fun _ _ => True) history program := by
  induction program generalizing history with
  | done result => exact trivial
  | call request next ih => exact ⟨trivial, fun answer => ih answer _⟩

/-- What holds of a result, in each of its two forms. -/
def onResult {ε : Type} (done : β → Prop) (failed : ε → Prop) : Except ε β → Prop
  | .ok value => done value
  | .error error => failed error

/-- The loop rule for a loop that stops at the first error. -/
theorem Obeys.tryEach {ε : Type} {body : α → β → Program I (Except ε β)} {all : List α} {acc : β}
    (inv : List α → List (Exchange I) → β → Prop) {failed : List (Exchange I) → ε → Prop}
    (start : inv [] history acc)
    (round : ∀ past x rest later acc, all = past ++ x :: rest → inv past later acc →
      Obeys legal (fun last => onResult (inv (past ++ [x]) last) (failed last)) later (body x acc)) :
    Obeys legal (fun last => onResult (inv all last) (failed last)) history
      (Program.tryEach body all acc) := by
  suffices loop : ∀ rest past later acc, all = past ++ rest → inv past later acc →
      Obeys legal (fun last => onResult (inv all last) (failed last)) later
        (Program.tryEach body rest acc) from
    loop all [] history acc rfl start
  intro rest
  induction rest with
  | nil =>
      intro past later acc whole holds
      rw [List.append_nil] at whole
      subst whole
      exact holds
  | cons x rest ih =>
      intro past later acc whole holds
      refine (round past x rest later acc whole holds).bind fun last result kept => ?_
      cases result with
      | ok acc => exact ih (past ++ [x]) last acc (by rw [whole, List.append_assoc]; rfl) kept
      | error error => exact kept

end Obeys

end WaitingRoom.Concurrency
