import WaitingRoom.Lambda.Admin

/-!
# The two debounces

An action is checked against the state it loaded and then written under a condition the database
evaluates. Both measure from the stamp of the last action. The first measures the signed time that
has passed, so a stamp ahead of the request's arrival is no prior action (`debounceCheck_iff`). The
second compares the stamp with the arrival less the window, so such a stamp fails it
(`debouncePredicate_iff`). The two agree exactly when the stamp is not ahead of the arrival
(`debounces_agree_iff`).
-/

set_option autoImplicit false

namespace WaitingRoom

open Dynamo

/-- An item whose stamp is the given one. -/
def HasStamp (item : Item) (anchor : Option ℤ) : Prop :=
  item "last_action_epoch_ms" = anchor.map fun millis => .N (millis : ℚ)

variable {item : Item} {anchor : Option ℤ}

/-- A stamp that names no instant is dropped, any other is read. -/
theorem lastActionTimeOf_stamped (stamped : HasStamp item anchor) :
    lastActionTimeOf item = anchor.filter isInstant := by
  rw [lastActionTimeOf, stamped]
  cases anchor with
  | none => rfl
  | some millis => simp [AttributeValue.asN]

/-- Milliseconds are whole: a request arrived before a stamp's instant or in its millisecond. -/
theorem lt_stamp_iff (now : ArrivalTime) (millis : ℤ) :
    (now.nanos : ℤ) < millis * 1000000 ↔ (now.millis : ℤ) < millis := by
  rw [ArrivalTime.millis]
  omega

/-- **The first check.** It refuses a request that arrived in the window after an instant. -/
theorem debounceCheck_iff (stamped : HasStamp item anchor) (now : ArrivalTime) :
    debounceCheck (controlStateOf item) now = .ok () ↔
      ∀ millis ∈ anchor, isInstant millis →
        (now.millis : ℤ) < millis ∨ millis + debounceMillis ≤ now.millis := by
  have read : (controlStateOf item).lastActionTime = anchor.filter isInstant :=
    lastActionTimeOf_stamped stamped
  rw [debounceCheck, read]
  cases anchor with
  | none => simp
  | some millis =>
      rw [Option.filter_some]
      cases instant : isInstant millis with
      | false => simp [instant]
      | true =>
          have before := lt_stamp_iff now millis
          have after := lt_stamp_iff now (millis + debounceMillis)
          simp only [if_true, Option.mem_def, Option.some.injEq, forall_eq', instant,
            forall_true_left]
          split_ifs with inside
          · refine iff_of_false nofun ?_
            omega
          · refine iff_of_true rfl ?_
            omega

/-- **The second check.** It refuses a request that did not arrive the window after the stamp. -/
theorem debouncePredicate_iff (stamped : HasStamp item anchor) (now : ArrivalTime) :
    (debouncePredicate now).holds item ↔
      ∀ millis ∈ anchor, millis + debounceMillis ≤ now.millis := by
  rw [debouncePredicate, Condition.holds, Condition.holds, Condition.holds, stamped]
  cases anchor with
  | none => simp
  | some millis =>
      simp only [Option.map_some, Option.isNone_some, Bool.false_or, Option.bind_some,
        AttributeValue.asN, Option.any_some, decide_eq_true_eq, Rat.intCast_le_intCast, Option.mem_def,
        Option.some.injEq, forall_eq']
      omega

/-! ## Agreement -/

/-- What the pair of checks promises of an item and an arrival. -/
structure DebouncesAgree (item : Item) (now : ArrivalTime) : Prop where
  /-- The two accept the same requests. -/
  same : debounceCheck (controlStateOf item) now = .ok () ↔ (debouncePredicate now).holds item
  /-- A request the first accepts is refused by the second only over another stamp. -/
  between : debounceCheck (controlStateOf item) now = .ok () → ∀ later : Item,
    (debouncePredicate now).holds later = false →
      later "last_action_epoch_ms" ≠ item "last_action_epoch_ms"
  /-- A stamp stands in the way of no request but those of its window. -/
  window : ∀ millis : ℤ, item "last_action_epoch_ms" = some (.N millis) →
    (debounceCheck (controlStateOf item) now ≠ .ok () ∨
      (debouncePredicate now).holds item = false) →
    millis ≤ now.millis ∧ (now.millis : ℤ) < millis + debounceMillis

/-- The second check reads nothing but the stamp. -/
theorem debouncePredicate_congr {later : Item} (now : ArrivalTime)
    (unchanged : later "last_action_epoch_ms" = item "last_action_epoch_ms") :
    (debouncePredicate now).holds later = (debouncePredicate now).holds item := by
  simp only [debouncePredicate, Condition.holds, unchanged]

/-- Every millisecond since the epoch that an arrival may lie in names an instant. -/
theorem isInstant_of_le {now : ArrivalTime} (arrived : isInstant now.millis) {millis : ℤ}
    (recent : (now.millis : ℤ) < millis + debounceMillis) (past : millis ≤ now.millis) :
    isInstant millis := by
  rw [isInstant, decide_eq_true_eq] at arrived ⊢
  rw [debounceMillis] at recent
  omega

/-- **The two debounces agree exactly where the stamp is not ahead of the arrival.** -/
theorem debounces_agree_iff (item : Item) (anchor : Option ℤ) (stamped : HasStamp item anchor)
    (now : ArrivalTime) (arrived : isInstant now.millis) :
    DebouncesAgree item now ↔ ∀ millis ∈ anchor, millis ≤ now.millis := by
  have first := debounceCheck_iff stamped now
  have second := debouncePredicate_iff stamped now
  constructor
  · intro agree millis stamp
    by_contra ahead
    have accepted : debounceCheck (controlStateOf item) now = .ok () := by
      refine first.mpr fun other sameStamp _ => .inl ?_
      rw [Option.mem_unique sameStamp stamp]
      omega
    have late := second.mp (agree.same.mp accepted) millis stamp
    omega
  · intro past
    have same : debounceCheck (controlStateOf item) now = .ok () ↔
        (debouncePredicate now).holds item := by
      rw [first, second]
      refine forall₂_congr fun millis stamp => ?_
      have notAhead := past millis stamp
      constructor
      · intro outside
        by_contra recent
        have := outside (isInstant_of_le arrived (by omega) notAhead)
        omega
      · exact fun late _ => .inr late
    refine ⟨same, fun accepted later refused unchanged => ?_, fun millis stamp blocked => ?_⟩
    · rw [debouncePredicate_congr now unchanged, same.mp accepted] at refused
      exact Bool.false_ne_true refused.symm
    · have refused : ¬ (debouncePredicate now).holds item := by
        rcases blocked with check | condition
        · exact fun holds => check (same.mpr holds)
        · exact Bool.not_eq_true _ ▸ condition
      have isAnchor : anchor = some millis := by
        rw [stamped] at stamp
        obtain ⟨found, isSome, equal⟩ := Option.map_eq_some_iff.mp stamp
        rw [isSome, Rat.intCast_inj.mp (AttributeValue.N.inj equal)]
      subst isAnchor
      refine ⟨past millis rfl, ?_⟩
      by_contra late
      refine refused (second.mpr fun other sameStamp => ?_)
      rw [← Option.some.inj sameStamp]
      omega

/-- An item stamped an hour ahead of a request's arrival. -/
def aheadItem : Item := Item.empty.put "last_action_epoch_ms" (.N ((1700003600000 : ℤ) : ℚ))

/-- A stamp an hour behind a request's arrival. -/
theorem debounces_agree_sample :
    DebouncesAgree aheadItem ⟨1700007200000000000⟩ ↔
      ∀ millis ∈ some (1700003600000 : ℤ), millis ≤ (1700007200000 : ℕ) :=
  debounces_agree_iff aheadItem (some 1700003600000) rfl ⟨1700007200000000000⟩
    (by decide +kernel)

/-- A stamp an hour ahead is no prior action to the first check, and fails the second. -/
theorem stamp_ahead_disagrees : ¬ DebouncesAgree aheadItem ⟨1700000000000000000⟩ := by
  intro agree
  have stamped : HasStamp aheadItem (some 1700003600000) := rfl
  have accepted : debounceCheck (controlStateOf aheadItem) ⟨1700000000000000000⟩ = .ok () :=
    (debounceCheck_iff stamped _).mpr (by decide +kernel)
  exact absurd ((debouncePredicate_iff stamped _).mp (agree.same.mp accepted)) (by decide +kernel)

end WaitingRoom
