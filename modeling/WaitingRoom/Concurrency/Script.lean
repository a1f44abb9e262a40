import Mathlib.Data.List.Basic
import Mathlib.Tactic.SplitIfs

/-!
# Scripts

A script changes a state as it goes, and what it changed before it throws stays changed. Three kinds of
facts are kept about one: what of the state it leaves alone (`Script.Keeps`), what holds after it when
something held before it, whether it returns or throws (`Script.Meets`), and that it does on a richer
state what another does on a plainer one (`Script.Follows`). There is one rule for each way of building
a script.
-/

set_option autoImplicit false

namespace WaitingRoom.Concurrency

/-- A computation that changes a state and may throw. -/
abbrev Script (σ ε α : Type) := ExceptT ε (StateM σ) α

namespace Script

variable {σ τ ε α β γ : Type}

/-- Run a script from a state. -/
def exec (script : Script σ ε α) (state : σ) : Except ε α × σ := script.run.run state

/-- What a fallible function returns or throws. -/
def ofExcept (result : Except ε α) : Script σ ε α := ExceptT.mk (pure result)

/-- Change the state. -/
def update (change : σ → σ) : Script σ ε Unit := ExceptT.mk fun state => (.ok (), change state)

/-- Read the state. -/
def read (view : σ → α) : Script σ ε α := ExceptT.mk fun state => (.ok (view state), state)

/-- Work on a part of the state. -/
def within (view : τ → σ) (put : σ → τ → τ) (script : Script σ ε α) : Script τ ε α :=
  ExceptT.mk fun state => ((script.exec (view state)).1, put (script.exec (view state)).2 state)

@[simp] theorem exec_pure (a : α) (state : σ) : (pure a : Script σ ε α).exec state = (.ok a, state) := rfl

@[simp] theorem exec_throw (error : ε) (state : σ) :
    (throw error : Script σ ε α).exec state = (.error error, state) := rfl

@[simp] theorem exec_ofExcept (result : Except ε α) (state : σ) :
    (ofExcept result : Script σ ε α).exec state = (result, state) := rfl

@[simp] theorem exec_update (change : σ → σ) (state : σ) :
    (update change : Script σ ε Unit).exec state = (.ok (), change state) := rfl

@[simp] theorem exec_read (view : σ → α) (state : σ) :
    (read view : Script σ ε α).exec state = (.ok (view state), state) := rfl

@[simp] theorem exec_within (view : τ → σ) (put : σ → τ → τ) (script : Script σ ε α) (state : τ) :
    (within view put script).exec state =
      ((script.exec (view state)).1, put (script.exec (view state)).2 state) := rfl

/-- Sequencing: what the first script throws, the second does not see. -/
theorem exec_bind (script : Script σ ε α) (next : α → Script σ ε β) (state : σ) :
    (script >>= next).exec state =
      match script.exec state with
      | (.ok a, later) => (next a).exec later
      | (.error error, later) => (.error error, later) := by
  change (ExceptT.bind script next).run state = _
  simp only [ExceptT.bind, ExceptT.mk, exec, ExceptT.run, StateT.run, bind, StateT.bind]
  rcases script state with ⟨_ | _, _⟩ <;> rfl

/-- What the first script throws, the handler sees, in the state it was thrown in. -/
theorem exec_tryCatch (script : Script σ ε α) (handler : ε → Script σ ε α) (state : σ) :
    (tryCatch script handler).exec state =
      match script.exec state with
      | (.ok a, later) => (.ok a, later)
      | (.error error, later) => (handler error).exec later := by
  change (ExceptT.tryCatch script handler).run state = _
  simp only [ExceptT.tryCatch, ExceptT.mk, exec, ExceptT.run, StateT.run, bind, StateT.bind]
  rcases script state with ⟨_ | _, _⟩ <;> rfl

/-! ## What a script leaves alone -/

/-- A part of the state is as it was. -/
def Keeps (view : σ → γ) (script : Script σ ε α) : Prop :=
  ∀ state, view (script.exec state).2 = view state

namespace Keeps

variable {view : σ → γ}

theorem pure (a : α) : Keeps view (Pure.pure a : Script σ ε α) := fun _ => rfl

theorem throw (error : ε) : Keeps view (MonadExcept.throw error : Script σ ε α) := fun _ => rfl

theorem ofExcept (result : Except ε α) : Keeps view (Script.ofExcept result : Script σ ε α) :=
  fun _ => rfl

theorem read (part : σ → α) : Keeps view (Script.read part : Script σ ε α) := fun _ => rfl

theorem update {change : σ → σ} (same : ∀ state, view (change state) = view state) :
    Keeps view (Script.update change : Script σ ε Unit) := same

theorem bind {script : Script σ ε α} {next : α → Script σ ε β} (first : Keeps view script)
    (second : ∀ a, Keeps view (next a)) : Keeps view (script >>= next) := by
  intro state
  rw [exec_bind]
  have kept := first state
  generalize script.exec state = outcome at kept ⊢
  rcases outcome with ⟨_ | a, later⟩
  · exact kept
  · exact (second a later).trans kept

theorem ite {condition : Prop} [Decidable condition] {first second : Script σ ε α}
    (holds : Keeps view first) (fails : Keeps view second) :
    Keeps view (if condition then first else second) := by
  split_ifs
  · exact holds
  · exact fails

theorem tryCatch {script : Script σ ε α} {handler : ε → Script σ ε α} (first : Keeps view script)
    (second : ∀ error, Keeps view (handler error)) :
    Keeps view (MonadExcept.tryCatch script handler) := by
  intro state
  rw [exec_tryCatch]
  have kept := first state
  generalize script.exec state = outcome at kept ⊢
  rcases outcome with ⟨error | _, later⟩
  · exact (second error later).trans kept
  · exact kept

end Keeps

/-! ## What holds after a script -/

/-- What holds of a result and the state it comes with. -/
def Ends (after : α → σ → Prop) (thrown : σ → Prop) : Except ε α × σ → Prop
  | (.ok a, later) => after a later
  | (.error _, later) => thrown later

/-- From a state with the one property, the script returns into a state with the other, or throws
into one with the third. -/
def Meets (before : σ → Prop) (script : Script σ ε α) (after : α → σ → Prop) (thrown : σ → Prop) : Prop :=
  ∀ state, before state → Ends after thrown (script.exec state)

namespace Meets

variable {before : σ → Prop} {after : α → σ → Prop} {thrown : σ → Prop}

theorem pure {a : α} (holds : ∀ state, before state → after a state) :
    Meets before (Pure.pure a : Script σ ε α) after thrown := holds

theorem throw {error : ε} (holds : ∀ state, before state → thrown state) :
    Meets before (MonadExcept.throw error : Script σ ε α) after thrown := holds

/-- A fallible function changes nothing. -/
theorem ofExcept {result : Except ε α} (ok : ∀ a, result = .ok a → ∀ state, before state → after a state)
    (fails : ∀ error, result = .error error → ∀ state, before state → thrown state) :
    Meets before (Script.ofExcept result : Script σ ε α) after thrown := by
  intro state holds
  rw [exec_ofExcept]
  cases result with
  | ok a => exact ok a rfl state holds
  | error error => exact fails error rfl state holds

theorem read {part : σ → α} (holds : ∀ state, before state → after (part state) state) :
    Meets before (Script.read part : Script σ ε α) after thrown := holds

theorem update {change : σ → σ} {after : Unit → σ → Prop}
    (holds : ∀ state, before state → after () (change state)) :
    Meets before (Script.update change : Script σ ε Unit) after thrown := holds

theorem bind {script : Script σ ε α} {next : α → Script σ ε β} {middle : α → σ → Prop}
    {after : β → σ → Prop} (first : Meets before script middle thrown)
    (second : ∀ a, Meets (middle a) (next a) after thrown) :
    Meets before (script >>= next) after thrown := by
  intro state holds
  rw [exec_bind]
  have reached := first state holds
  generalize script.exec state = outcome at reached ⊢
  rcases outcome with ⟨_ | a, later⟩
  · exact reached
  · exact second a later reached

theorem ite {condition : Prop} [Decidable condition] {first second : Script σ ε α}
    (holds : condition → Meets before first after thrown)
    (fails : ¬ condition → Meets before second after thrown) :
    Meets before (if condition then first else second) after thrown := by
  split_ifs with holding
  · exact holds holding
  · exact fails holding

theorem tryCatch {script : Script σ ε α} {handler : ε → Script σ ε α} {caught : σ → Prop}
    (first : Meets before script after caught) (second : ∀ error, Meets caught (handler error) after thrown) :
    Meets before (MonadExcept.tryCatch script handler) after thrown := by
  intro state holds
  rw [exec_tryCatch]
  have reached := first state holds
  generalize script.exec state = outcome at reached ⊢
  rcases outcome with ⟨error | _, later⟩
  · exact second error later reached
  · exact reached

/-- A stronger property before, weaker ones after. -/
theorem mono {script : Script σ ε α} {before' : σ → Prop} {after' : α → σ → Prop} {thrown' : σ → Prop}
    (meets : Meets before script after thrown) (stronger : ∀ state, before' state → before state)
    (weaker : ∀ a state, after a state → after' a state)
    (weaker' : ∀ state, thrown state → thrown' state) : Meets before' script after' thrown' := by
  intro state holds
  have reached := meets state (stronger state holds)
  generalize script.exec state = outcome at reached ⊢
  rcases outcome with ⟨_ | a, later⟩
  · exact weaker' later reached
  · exact weaker a later reached

/-- Two accounts of one script. -/
theorem and {script : Script σ ε α} {before' : σ → Prop} {after' : α → σ → Prop} {thrown' : σ → Prop}
    (meets : Meets before script after thrown) (meets' : Meets before' script after' thrown') :
    Meets (fun state => before state ∧ before' state) script (fun a state => after a state ∧ after' a state)
      fun state => thrown state ∧ thrown' state := by
  intro state holds
  have reached := meets state holds.1
  have reached' := meets' state holds.2
  generalize script.exec state = outcome at reached reached' ⊢
  rcases outcome with ⟨_ | a, later⟩
  · exact ⟨reached, reached'⟩
  · exact ⟨reached, reached'⟩

/-- What is read is known of the state. -/
theorem read_bind {part : σ → β} {next : β → Script σ ε α}
    (each : ∀ value, Meets (fun state => before state ∧ part state = value) (next value) after thrown) :
    Meets before (Script.read part >>= next) after thrown :=
  bind (read fun _ holds => ⟨holds, rfl⟩) each

theorem update_bind (middle : σ → Prop) {change : σ → σ} {next : Unit → Script σ ε α}
    (holds : ∀ state, before state → middle (change state))
    (rest : Meets middle (next ()) after thrown) : Meets before (Script.update change >>= next) after thrown := by
  have first : Meets before (Script.update change : Script σ ε Unit) (fun _ => middle) thrown := holds
  exact bind first fun _ => rest

theorem ofExcept_bind {result : Except ε β} {next : β → Script σ ε α}
    (each : ∀ value, result = .ok value → Meets before (next value) after thrown)
    (fails : ∀ error, result = .error error → ∀ state, before state → thrown state) :
    Meets before (Script.ofExcept result >>= next) after thrown := by
  have first : Meets before (Script.ofExcept result)
      (fun value state => before state ∧ result = .ok value) thrown :=
    ofExcept (fun _ same _ holds => ⟨holds, same⟩) fails
  refine bind first fun value state here => ?_
  exact each value here.2 state here.1

/-- A step that reads. -/
theorem read_step {part : σ → β} {next : β → Script σ ε α}
    (rest : ∀ value, Meets before (next value) after thrown) :
    Meets before (Script.read part >>= next) after thrown :=
  bind (read fun _ holds => holds) rest

/-- A step that keeps the property. -/
theorem update_step {change : σ → σ} {next : Unit → Script σ ε α}
    (kept : ∀ state, before state → before (change state)) (rest : Meets before (next ()) after thrown) :
    Meets before (Script.update change >>= next) after thrown :=
  update_bind before kept rest

/-- A step that may throw what the property allows. -/
theorem ofExcept_step {result : Except ε β} {next : β → Script σ ε α}
    (rest : ∀ value, Meets before (next value) after before) :
    Meets before (Script.ofExcept result >>= next) after before :=
  ofExcept_bind (fun value _ => rest value) fun _ _ _ holds => holds

/-- Work on a part of the state, with the rest as it is. -/
theorem within {view : τ → σ} {put : σ → τ → τ} {script : Script σ ε α} {before thrown : τ → Prop}
    {after : α → τ → Prop} (same : ∀ state, put (view state) state = state)
    (each : ∀ state, Meets (fun part => before (put part state)) script
      (fun a part => after a (put part state)) (fun part => thrown (put part state))) :
    Meets before (Script.within view put script) after thrown := by
  intro state holds
  have here : before (put (view state) state) := by
    rw [same]
    exact holds
  have reached := each state (view state) here
  rw [exec_within]
  generalize script.exec (view state) = outcome at reached ⊢
  rcases outcome with ⟨_ | a, part⟩
  · exact reached
  · exact reached

end Meets

/-! ## One script doing what another does -/

/-- Seen through the view, the finer script does what the coarser one does. -/
def Follows (view : τ → σ) (fine : Script τ ε α) (coarse : Script σ ε α) : Prop :=
  ∀ state, Prod.map id view (fine.exec state) = coarse.exec (view state)

namespace Follows

variable {view : τ → σ}

theorem pure (a : α) : Follows view (Pure.pure a : Script τ ε α) (Pure.pure a) := fun _ => rfl

theorem throw (error : ε) :
    Follows view (MonadExcept.throw error : Script τ ε α) (MonadExcept.throw error) := fun _ => rfl

theorem update {fine : τ → τ} {coarse : σ → σ} (same : ∀ state, view (fine state) = coarse (view state)) :
    Follows view (Script.update fine : Script τ ε Unit) (Script.update coarse) :=
  fun state => Prod.ext rfl (same state)

/-- Work on the part that is viewed. -/
theorem within {put : σ → τ → τ} {script : Script σ ε α} (put_view : ∀ part state, view (put part state) = part) :
    Follows view (Script.within view put script) script :=
  fun state => Prod.ext rfl (put_view _ state)

theorem bind {fine : Script τ ε α} {coarse : Script σ ε α} {fineNext : α → Script τ ε β}
    {coarseNext : α → Script σ ε β} (first : Follows view fine coarse)
    (second : ∀ a, Follows view (fineNext a) (coarseNext a)) :
    Follows view (fine >>= fineNext) (coarse >>= coarseNext) := by
  intro state
  rw [exec_bind, exec_bind, ← first state]
  rcases fine.exec state with ⟨_ | a, later⟩
  · rfl
  · exact second a later

theorem ite {condition : Prop} [Decidable condition] {fine fine' : Script τ ε α} {coarse coarse' : Script σ ε α}
    (holds : Follows view fine coarse) (fails : Follows view fine' coarse') :
    Follows view (if condition then fine else fine') (if condition then coarse else coarse') := by
  split_ifs
  · exact holds
  · exact fails

/-- A change that the view does not show. -/
theorem silent {change : τ → τ} {fineNext : Unit → Script τ ε α} {coarse : Script σ ε α}
    (hidden : ∀ state, view (change state) = view state) (rest : Follows view (fineNext ()) coarse) :
    Follows view (Script.update change >>= fineNext) coarse := by
  intro state
  rw [exec_bind, exec_update, rest (change state), hidden]

end Follows

end Script

end WaitingRoom.Concurrency
