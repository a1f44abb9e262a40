import Mathlib.Algebra.BigOperators.Fin
import Mathlib.Data.Set.Function

/-!
# Striped index spaces

Indices are issued by `m` independent counters, `counts s` of them by counter `s`. Placing
the stripes one after the other numbers them all: index `l` of stripe `s` becomes
`issuedBefore counts s + l`. The numbering is a bijection of the issued pairs with an
initial segment (`globalIndex_bijOn`), which is `finSigmaFinEquiv` on pairs of numbers.
-/

set_option autoImplicit false

namespace WaitingRoom.Combinatorics

variable {m : ℕ} (counts : Fin m → ℕ)

/-- How many indices the first `k` stripes issued. -/
def issuedBefore (k : ℕ) (le : k ≤ m) : ℕ := ∑ i : Fin k, counts (Fin.castLE le i)

/-- The global number of index `p.2` of stripe `p.1`. -/
def globalIndex (p : Fin m × ℕ) : ℕ := issuedBefore counts p.1 p.1.isLt.le + p.2

theorem issuedBefore_succ {k : ℕ} (lt : k < m) :
    issuedBefore counts (k + 1) lt = issuedBefore counts k lt.le + counts ⟨k, lt⟩ :=
  Fin.sum_univ_castSucc _

theorem issuedBefore_total : issuedBefore counts m le_rfl = ∑ s, counts s := rfl

theorem issuedBefore_mono {j k : ℕ} (le : j ≤ k) (bound : k ≤ m) :
    issuedBefore counts j (le.trans bound) ≤ issuedBefore counts k bound := by
  induction k, le using Nat.le_induction with
  | base => exact le_rfl
  | succ k _ ih =>
      rw [issuedBefore_succ]
      exact (ih (Nat.le_of_succ_le bound)).trans (Nat.le_add_right _ _)

theorem issuedBefore_le_total {k : ℕ} (bound : k ≤ m) :
    issuedBefore counts k bound ≤ ∑ s, counts s :=
  issuedBefore_mono counts bound le_rfl

/-- An issued index of a stripe stays below the next stripe. -/
theorem globalIndex_lt_total {s : Fin m} {l : ℕ} (issued : l < counts s) :
    globalIndex counts (s, l) < ∑ s, counts s := by
  have next := issuedBefore_le_total counts (Nat.succ_le_of_lt s.isLt)
  rw [issuedBefore_succ, Fin.eta] at next
  simp only [globalIndex]
  omega

/-- **Issued pairs and numbers below the total correspond one to one.** -/
theorem globalIndex_bijOn :
    Set.BijOn (globalIndex counts) {p | p.2 < counts p.1} (Set.Iio (∑ s, counts s)) := by
  have numbered : ∀ (s : Fin m) (l : Fin (counts s)),
      globalIndex counts (s, l) = (finSigmaFinEquiv ⟨s, l⟩ : ℕ) := fun s l => by
    rw [finSigmaFinEquiv_apply]
    rfl
  refine ⟨fun p issued => globalIndex_lt_total counts issued, ?_, fun i below => ?_⟩
  · rintro ⟨s, l⟩ issued ⟨s', l'⟩ issued' same
    have equal : (finSigmaFinEquiv ⟨s, ⟨l, issued⟩⟩ : Fin (∑ s, counts s)) =
        finSigmaFinEquiv ⟨s', ⟨l', issued'⟩⟩ := Fin.ext <| by
      rw [← numbered s ⟨l, issued⟩, ← numbered s' ⟨l', issued'⟩]
      exact same
    have pairs := finSigmaFinEquiv.injective equal
    obtain rfl : s = s' := congrArg Sigma.fst pairs
    have locals : (⟨l, issued⟩ : Fin (counts s)) = ⟨l', issued'⟩ :=
      eq_of_heq (Sigma.mk.inj pairs).2
    exact Prod.ext rfl (congrArg Fin.val locals)
  · obtain ⟨⟨s, l⟩, found⟩ := finSigmaFinEquiv.surjective (⟨i, below⟩ : Fin (∑ s, counts s))
    refine ⟨(s, l), l.isLt, ?_⟩
    rw [numbered, found]

end WaitingRoom.Combinatorics
