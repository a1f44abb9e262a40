import Mathlib.Logic.Function.Iterate
import Mathlib.Data.List.Basic

/-!
# Rewriting a text until it is stable

A rewriting step that shortens every text it changes is repeated until it changes nothing. The
loop ends within as many rounds as the text has letters (`untilStable_stable`), and whatever number
of rounds it takes, its result is that of iterating the step (`untilStable_eq_iterate`).
-/

set_option autoImplicit false

namespace WaitingRoom.Text

variable {α : Type}

/-- Repeat a step until it changes nothing, at most `rounds` times. -/
def untilStable [DecidableEq α] (step : List α → List α) : ℕ → List α → List α
  | 0, text => text
  | rounds + 1, text => if step text = text then text else untilStable step rounds (step text)

/-- A step that shortens every text it changes. -/
def Shortens (step : List α → List α) : Prop :=
  ∀ text, step text = text ∨ (step text).length < text.length

variable {step : List α → List α}

theorem iterate_of_stable {text : List α} (stable : step text = text) (rounds : ℕ) :
    step^[rounds] text = text :=
  Function.iterate_fixed stable rounds

/-- The loop is the iteration of its step. -/
theorem untilStable_eq_iterate [DecidableEq α] (rounds : ℕ) (text : List α) :
    untilStable step rounds text = step^[rounds] text := by
  induction rounds generalizing text with
  | zero => rfl
  | succ rounds ih =>
      rw [untilStable]
      split_ifs with stable
      · exact (iterate_of_stable stable (rounds + 1)).symm
      · rw [ih, Function.iterate_succ_apply]

/-- **The loop ends.** Within as many rounds as there are letters nothing changes any more. -/
theorem iterate_stable (shortens : Shortens step) {rounds : ℕ} {text : List α}
    (enough : text.length ≤ rounds) : step (step^[rounds] text) = step^[rounds] text := by
  induction rounds generalizing text with
  | zero =>
      rcases shortens text with stable | shorter
      · exact stable
      · omega
  | succ rounds ih =>
      rw [Function.iterate_succ_apply]
      rcases shortens text with stable | shorter
      · rw [stable, iterate_of_stable stable, stable]
      · exact ih (by omega)

theorem untilStable_stable [DecidableEq α] (shortens : Shortens step) (text : List α) :
    step (untilStable step text.length text) = untilStable step text.length text := by
  rw [untilStable_eq_iterate]
  exact iterate_stable shortens (Nat.le_refl _)

/-- More rounds change nothing. -/
theorem iterate_eq_of_le (shortens : Shortens step) {text : List α} {rounds : ℕ}
    (enough : text.length ≤ rounds) : step^[rounds] text = step^[text.length] text := by
  obtain ⟨more, rfl⟩ := Nat.exists_eq_add_of_le' enough
  rw [Function.iterate_add_apply]
  exact iterate_of_stable (iterate_stable shortens (Nat.le_refl _)) more

/-- Repeating a step that only drops letters only drops letters. -/
theorem iterate_sublist (drops : ∀ text, (step text).Sublist text) (rounds : ℕ) (text : List α) :
    (step^[rounds] text).Sublist text := by
  induction rounds generalizing text with
  | zero => exact List.Sublist.refl text
  | succ rounds ih =>
      rw [Function.iterate_succ_apply]
      exact (ih (step text)).trans (drops text)

end WaitingRoom.Text
