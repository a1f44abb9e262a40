import Mathlib.Data.Finset.Card
import Mathlib.Data.Nat.Bitwise
import Mathlib.Data.Nat.Find

/-!
# Feistel networks and cycle-walking

A Feistel network permutes pairs of halves whatever its round function is, because each
round keeps one half and masks the other with it (`feistel_injective`).

Cycle-walking restricts a permutation of a finite domain to a subset: apply it until the
result falls back into the subset. The walk is a first-return map, so it returns within as
many steps as the domain has elements (`cycleWalk_isSome`), lands in the subset, and is a
bijection of it (`cycleWalk_bijOn`).
-/

set_option autoImplicit false

namespace WaitingRoom.Combinatorics

/-! ## Feistel networks -/

/-- `count` rounds from `round` on: the right half moves to the left, and the left half,
masked with the round function of the right one, moves to the right. -/
def feistel (F : ℕ → ℕ → ℕ) : ℕ → ℕ → ℕ × ℕ → ℕ × ℕ
  | 0, _, halves => halves
  | count + 1, round, (left, right) =>
      feistel F count (round + 1) (right, left ^^^ F round right)

/-- **A Feistel network is injective, whatever its round function.** -/
theorem feistel_injective (F : ℕ → ℕ → ℕ) (count : ℕ) :
    ∀ round, Function.Injective (feistel F count round) := by
  induction count with
  | zero => intro _ _ _ same; exact same
  | succ count ih =>
      rintro round ⟨left, right⟩ ⟨left', right'⟩ same
      obtain ⟨rfl, masked⟩ := Prod.mk.inj (ih (round + 1) same)
      exact Prod.ext (Nat.xor_left_inj.mp masked) rfl

/-- Halves of `b` bits stay halves of `b` bits when the round function has `b` bits. -/
theorem feistel_lt {F : ℕ → ℕ → ℕ} {b : ℕ} (bits : ∀ round x, F round x < 2 ^ b) (count : ℕ) :
    ∀ round (halves : ℕ × ℕ), halves.1 < 2 ^ b → halves.2 < 2 ^ b →
      (feistel F count round halves).1 < 2 ^ b ∧ (feistel F count round halves).2 < 2 ^ b := by
  induction count with
  | zero => intro _ _ left right; exact ⟨left, right⟩
  | succ count ih =>
      rintro round ⟨left, right⟩ leftBits rightBits
      exact ih (round + 1) _ rightBits (Nat.xor_lt_two_pow leftBits (bits round right))

/-! ## Cycle-walking -/

section Walk

variable {α : Type*} (f : α → α) (stop : α → Bool)

/-- Apply `f` until the result satisfies `stop`, at most `fuel` times. -/
def cycleWalk : ℕ → α → Option α
  | 0, _ => none
  | fuel + 1, v => if stop (f v) then some (f v) else cycleWalk fuel (f v)

variable {f stop}

/-- The walk returns the first iterate that satisfies `stop`. -/
theorem cycleWalk_eq_some {fuel : ℕ} {v w : α} :
    cycleWalk f stop fuel v = some w ↔
      ∃ k, k < fuel ∧ f^[k + 1] v = w ∧ stop w ∧ ∀ j < k, ¬stop (f^[j + 1] v) := by
  induction fuel generalizing v with
  | zero => simp [cycleWalk]
  | succ fuel ih =>
      by_cases here : stop (f v)
      · simp only [cycleWalk, here, if_true, Option.some.injEq]
        constructor
        · rintro rfl
          exact ⟨0, Nat.succ_pos _, rfl, here, fun j none => absurd none (Nat.not_lt_zero _)⟩
        · rintro ⟨k, -, rfl, -, first⟩
          cases k with
          | zero => rfl
          | succ k => exact absurd here (first 0 (Nat.succ_pos _))
      · simp only [cycleWalk, here, Bool.false_eq_true, if_false, ih]
        constructor
        · rintro ⟨k, bound, rfl, stops, first⟩
          refine ⟨k + 1, Nat.succ_lt_succ bound, rfl, stops, fun j before => ?_⟩
          cases j with
          | zero => exact here
          | succ j => exact first j (Nat.lt_of_succ_lt_succ before)
        · rintro ⟨k, bound, rfl, stops, first⟩
          cases k with
          | zero => exact absurd stops here
          | succ k =>
              exact ⟨k, Nat.lt_of_succ_lt_succ bound, rfl, stops,
                fun j before => first (j + 1) (Nat.succ_lt_succ before)⟩

variable {domain : Finset α}

/-- An injection of a finite domain brings every element back to itself. -/
theorem exists_return (maps : Set.MapsTo f domain domain) (injective : Set.InjOn f domain)
    {v : α} (inside : v ∈ domain) : ∃ k, k < domain.card ∧ f^[k + 1] v = v := by
  have orbit : ∀ k, f^[k] v ∈ domain := fun k => maps.iterate k inside
  obtain ⟨i, iBound, j, jBound, differ, collide⟩ :=
    Finset.exists_ne_map_eq_of_card_lt_of_maps_to
      (s := Finset.range (domain.card + 1)) (t := domain) (f := fun k => f^[k] v)
      (by simp) (fun k _ => orbit k)
  wlog before : i < j generalizing i j with symmetric
  · exact symmetric j jBound i iBound differ.symm collide.symm (by omega)
  have jLt := Finset.mem_range.mp jBound
  refine ⟨j - i - 1, by omega, ?_⟩
  have back : f^[i] (f^[j - i - 1 + 1] v) = f^[i] v := by
    rw [← Function.iterate_add_apply]
    have total : i + (j - i - 1 + 1) = j := by omega
    rw [total]
    exact collide.symm
  exact (injective.iterate maps i) (orbit _) inside back

/-- **The walk from inside the subset returns within as many steps as the domain has.** -/
theorem cycleWalk_isSome (maps : Set.MapsTo f domain domain) (injective : Set.InjOn f domain)
    {v : α} (inside : v ∈ domain) (stops : stop v) :
    (cycleWalk f stop domain.card v).isSome := by
  classical
  obtain ⟨k, bound, returns⟩ := exists_return maps injective inside
  have found : ∃ k, stop (f^[k + 1] v) := ⟨k, by rwa [returns]⟩
  refine Option.isSome_iff_exists.mpr ⟨f^[Nat.find found + 1] v, cycleWalk_eq_some.mpr
    ⟨Nat.find found, ?_, rfl, Nat.find_spec found, fun j before => Nat.find_min found before⟩⟩
  exact lt_of_le_of_lt (Nat.find_min' found (by rwa [returns])) bound

/-- Walks from two elements of the subset that end at one element started at one. -/
theorem cycleWalk_injOn (maps : Set.MapsTo f domain domain) (injective : Set.InjOn f domain)
    {fuel : ℕ} {v v' w : α} (inside : v ∈ domain) (stops : stop v) (inside' : v' ∈ domain)
    (stops' : stop v') (walk : cycleWalk f stop fuel v = some w)
    (walk' : cycleWalk f stop fuel v' = some w) : v = v' := by
  obtain ⟨k, -, ends, -, first⟩ := cycleWalk_eq_some.mp walk
  obtain ⟨k', -, ends', -, first'⟩ := cycleWalk_eq_some.mp walk'
  wlog shorter : k ≤ k' generalizing v v' k k' with symmetric
  · exact (symmetric inside' stops' inside stops walk' walk k' ends' first' k ends first
      (by omega)).symm
  have orbit : ∀ j, f^[j] v' ∈ domain := fun j => maps.iterate j inside'
  have meet : f^[k + 1] v = f^[k + 1] (f^[k' - k] v') := by
    rw [← Function.iterate_add_apply]
    have total : k + 1 + (k' - k) = k' + 1 := by omega
    rw [total, ends, ends']
  have start : v = f^[k' - k] v' := (injective.iterate maps (k + 1)) inside (orbit _) meet
  rcases Nat.eq_zero_or_pos (k' - k) with same | longer
  · rw [same] at start
    exact start
  · have early := first' (k' - k - 1) (by omega)
    have step : k' - k - 1 + 1 = k' - k := by omega
    rw [step, ← start] at early
    exact absurd stops early

/-- **Cycle-walking an injection of a finite domain is a bijection of the subset.** -/
theorem cycleWalk_bijOn (maps : Set.MapsTo f domain domain) (injective : Set.InjOn f domain)
    {walk : α → α}
    (walks : ∀ v ∈ domain, stop v → cycleWalk f stop domain.card v = some (walk v)) :
    Set.BijOn walk {v | v ∈ domain ∧ stop v} {v | v ∈ domain ∧ stop v} := by
  have lands : Set.MapsTo walk {v | v ∈ domain ∧ stop v} {v | v ∈ domain ∧ stop v} := by
    rintro v ⟨inside, stops⟩
    obtain ⟨k, -, ends, stopped, -⟩ := cycleWalk_eq_some.mp (walks v inside stops)
    exact ⟨ends ▸ maps.iterate (k + 1) inside, stopped⟩
  have apart : Set.InjOn walk {v | v ∈ domain ∧ stop v} := by
    rintro v ⟨inside, stops⟩ v' ⟨inside', stops'⟩ same
    refine cycleWalk_injOn maps injective inside stops inside' stops' (walks v inside stops) ?_
    rw [walks v' inside' stops', same]
  refine ⟨lands, apart, ?_⟩
  rw [← Finset.coe_filter] at lands apart ⊢
  exact Finset.surjOn_of_injOn_of_card_le _ lands apart le_rfl

end Walk

end WaitingRoom.Combinatorics
