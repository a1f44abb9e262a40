import Mathlib.Data.List.Basic
import Mathlib.Order.Basic
import Mathlib.Data.Nat.Notation

/-!
# A slot whose value expires

One process answers lookups one after another, from a slot while its value is fresh and from a slow
and fallible source otherwise, whose answer it keeps. However the lookups fall, what is answered was
read less than the time to live ago (`Slot.served_fresh`), and the source is asked successfully at
most once in that time (`Slot.reads_apart`).
-/

set_option autoImplicit false

namespace WaitingRoom.Concurrency

/-- A value, and when it arrived. -/
abbrev Slot (α : Type) := Option (ℕ × α)

/-- One lookup: when it was asked for, and what the source answers and when, should it be asked. -/
structure Lookup (ε α : Type) where
  asked : ℕ
  reply : Except ε α
  arrived : ℕ

namespace Slot

variable {ε α : Type}

/-- The value of a slot while it is fresh. -/
def get (ttl : ℕ) (slot : Slot α) (now : ℕ) : Option α :=
  match slot with
  | none => none
  | some (storedAt, value) => if now - storedAt < ttl then some value else none

/-- What a lookup is answered, and the slot after it: a failure is not kept. -/
def load (ttl : ℕ) (slot : Slot α) (lookup : Lookup ε α) : Except ε α × Slot α :=
  match get ttl slot lookup.asked with
  | some hit => (.ok hit, slot)
  | none =>
      match lookup.reply with
      | .error error => (.error error, slot)
      | .ok value => (.ok value, some (lookup.arrived, value))

/-- The lookups with their answers. -/
def served (ttl : ℕ) (slot : Slot α) : List (Lookup ε α) → List (Lookup ε α × Except ε α)
  | [] => []
  | lookup :: rest => (lookup, (load ttl slot lookup).1) :: served ttl (load ttl slot lookup).2 rest

/-- The lookups that asked the source and were answered by it. -/
def reads (ttl : ℕ) (slot : Slot α) : List (Lookup ε α) → List (Lookup ε α)
  | [] => []
  | lookup :: rest =>
      if (get ttl slot lookup.asked).isNone ∧ lookup.reply.isOk then
        lookup :: reads ttl (load ttl slot lookup).2 rest
      else reads ttl (load ttl slot lookup).2 rest

/-- The lookups come one after another, from some time on. -/
def InOrder (start : ℕ) : List (Lookup ε α) → Prop
  | [] => True
  | lookup :: rest => start ≤ lookup.asked ∧ lookup.asked ≤ lookup.arrived ∧ InOrder lookup.arrived rest

section Rules

variable {ttl start : ℕ} {slot : Slot α} {lookups : List (Lookup ε α)} {lookup : Lookup ε α}

theorem get_eq_some {value : α} {now : ℕ} (hit : get ttl slot now = some value) :
    ∃ storedAt, slot = some (storedAt, value) ∧ now - storedAt < ttl := by
  cases slot with
  | none => cases hit
  | some pair =>
      obtain ⟨storedAt, stored⟩ := pair
      simp only [get] at hit
      split_ifs at hit with fresh
      obtain rfl := Option.some.inj hit
      exact ⟨storedAt, rfl, fresh⟩

/-- A value in the slot was read by an earlier lookup. -/
def ReadBy (before : List (Lookup ε α)) (slot : Slot α) : Prop :=
  ∀ storedAt value, slot = some (storedAt, value) →
    ∃ read ∈ before, read.reply = .ok value ∧ read.arrived = storedAt

/-- One lookup keeps the slot a value that was read. -/
theorem ReadBy.load {before : List (Lookup ε α)} (read : ReadBy before slot) :
    ReadBy (before ++ [lookup]) (load ttl slot lookup).2 := by
  intro storedAt value kept
  unfold Slot.load at kept
  cases hit : get ttl slot lookup.asked with
  | some hit' =>
      rw [hit] at kept
      obtain ⟨earlier, member, reply, arrived⟩ := read storedAt value kept
      exact ⟨earlier, List.mem_append_left _ member, reply, arrived⟩
  | none =>
      rw [hit] at kept
      cases reply : lookup.reply with
      | error error =>
          rw [reply] at kept
          obtain ⟨earlier, member, reply, arrived⟩ := read storedAt value kept
          exact ⟨earlier, List.mem_append_left _ member, reply, arrived⟩
      | ok found =>
          rw [reply] at kept
          obtain ⟨rfl, rfl⟩ := Prod.mk.inj (Option.some.inj kept)
          exact ⟨lookup, by simp, reply, rfl⟩

/-- **What is answered was read for this lookup, or by an earlier one less than the time to live
ago.** -/
theorem served_fresh {value : α} (member : (lookup, .ok value) ∈ served ttl none lookups) :
    ∃ before rest, lookups = before ++ lookup :: rest ∧ (lookup.reply = .ok value ∨
      ∃ read ∈ before, read.reply = .ok value ∧ lookup.asked - read.arrived < ttl) := by
  suffices every : ∀ before (slot : Slot α) rest, lookups = before ++ rest → ReadBy before slot →
      (lookup, .ok value) ∈ served ttl slot rest →
        ∃ before rest, lookups = before ++ lookup :: rest ∧ (lookup.reply = .ok value ∨
          ∃ read ∈ before, read.reply = .ok value ∧ lookup.asked - read.arrived < ttl) from
    every [] none lookups rfl nofun member
  intro before slot rest
  induction rest generalizing before slot with
  | nil =>
      intro _ _ member
      cases member
  | cons first rest ih =>
      intro whole read member
      rcases List.mem_cons.mp member with here | later
      · obtain ⟨rfl, answer⟩ := Prod.mk.inj here
        refine ⟨before, rest, whole, ?_⟩
        unfold Slot.load at answer
        cases hit : get ttl slot lookup.asked with
        | some found =>
            rw [hit] at answer
            obtain rfl := Except.ok.inj answer
            obtain ⟨storedAt, rfl, fresh⟩ := get_eq_some hit
            obtain ⟨earlier, inside, reply, rfl⟩ := read storedAt value rfl
            exact .inr ⟨earlier, inside, reply, fresh⟩
        | none =>
            rw [hit] at answer
            cases reply : lookup.reply with
            | error error =>
                rw [reply] at answer
                cases answer
            | ok found =>
                rw [reply] at answer
                obtain rfl := Except.ok.inj answer
                exact .inl rfl
      · exact ih (before ++ [first]) _ (by simp [whole]) read.load later

/-- What was read was read by a lookup. -/
theorem exists_read {value : α} (member : (lookup, .ok value) ∈ served ttl none lookups) :
    ∃ read ∈ lookups, read.reply = .ok value := by
  obtain ⟨before, rest, rfl, here | ⟨read, inside, reply, -⟩⟩ := served_fresh member
  · exact ⟨lookup, by simp, here⟩
  · exact ⟨read, List.mem_append_left _ inside, reply⟩

/-- A lookup that asks the source finds no value, or one that is past its time. -/
theorem add_le_of_get_eq_none {pair : ℕ × α} {now : ℕ} (miss : get ttl (some pair) now = none)
    (past : pair.1 ≤ now) : pair.1 + ttl ≤ now := by
  simp only [get] at miss
  split_ifs at miss with fresh
  omega

/-- The slot after a lookup that did not read. -/
theorem load_of_not_read (kept : ¬ ((get ttl slot lookup.asked).isNone ∧ lookup.reply.isOk)) :
    (load ttl slot lookup).2 = slot := by
  unfold load
  cases hit : get ttl slot lookup.asked with
  | some value => rfl
  | none =>
      cases reply : lookup.reply with
      | error error => rfl
      | ok value =>
          rw [hit, reply] at kept
          exact absurd ⟨rfl, rfl⟩ kept

/-- The slot after a lookup that read. -/
theorem load_of_read (read : (get ttl slot lookup.asked).isNone ∧ lookup.reply.isOk) :
    ∃ value, (load ttl slot lookup).2 = some (lookup.arrived, value) := by
  obtain ⟨miss, answered⟩ := read
  unfold load
  rw [Option.isNone_iff_eq_none.mp miss]
  cases reply : lookup.reply with
  | error error =>
      rw [reply] at answered
      cases answered
  | ok value => exact ⟨value, rfl⟩

/-- A read comes the time to live after what is in the slot. -/
theorem reads_after (order : InOrder start lookups) (stored : ∀ pair, slot = some pair → pair.1 ≤ start)
    {read : Lookup ε α} (member : read ∈ reads ttl slot lookups) :
    start ≤ read.asked ∧ ∀ pair, slot = some pair → pair.1 + ttl ≤ read.asked := by
  induction lookups generalizing start slot with
  | nil => cases member
  | cons first rest ih =>
      obtain ⟨since, forward, later⟩ := order
      rw [reads] at member
      split_ifs at member with asks
      · obtain ⟨value, after⟩ := load_of_read asks
        rcases List.mem_cons.mp member with rfl | member
        · refine ⟨since, fun pair here => ?_⟩
          have past := stored pair here
          rw [here, Option.isNone_iff_eq_none] at asks
          exact add_le_of_get_eq_none asks.1 (Nat.le_trans past since)
        · rw [after] at member
          obtain ⟨below, apart⟩ := ih later (by rintro _ ⟨⟩; exact Nat.le_refl _) member
          have next := apart _ rfl
          refine ⟨by omega, fun pair here => ?_⟩
          have past := stored pair here
          simp only at next
          omega
      · rw [load_of_not_read asks] at member
        obtain ⟨below, apart⟩ := ih later (fun pair here => by have := stored pair here; omega) member
        exact ⟨by omega, apart⟩

/-- **The source answers at most once in the time to live.** -/
theorem reads_apart (order : InOrder start lookups)
    (stored : ∀ pair, slot = some pair → pair.1 ≤ start) :
    (reads ttl slot lookups).Pairwise fun earlier later => earlier.arrived + ttl ≤ later.asked := by
  induction lookups generalizing start slot with
  | nil => exact .nil
  | cons first rest ih =>
      obtain ⟨since, forward, later⟩ := order
      rw [reads]
      split_ifs with asks
      · obtain ⟨value, after⟩ := load_of_read asks
        rw [after]
        have kept : ∀ pair, some (first.arrived, value) = some pair → pair.1 ≤ first.arrived := by
          rintro _ ⟨⟩
          exact Nat.le_refl _
        refine List.pairwise_cons.mpr ⟨fun read member => ?_, ih later kept⟩
        exact (reads_after later kept member).2 _ rfl
      · rw [load_of_not_read asks]
        exact ih later fun pair here => by have := stored pair here; omega

/-- The reads are lookups, one after another. -/
theorem reads_sublist (ttl : ℕ) (slot : Slot α) (lookups : List (Lookup ε α)) :
    (reads ttl slot lookups).Sublist lookups := by
  induction lookups generalizing slot with
  | nil => exact .slnil
  | cons first rest ih =>
      rw [reads]
      split_ifs with asks
      · exact (ih _).cons_cons _
      · exact (ih _).cons _

/-- Lookups that come one after another end no earlier than they start. -/
theorem InOrder.bounds (order : InOrder start lookups) (member : lookup ∈ lookups) :
    start ≤ lookup.asked ∧ lookup.asked ≤ lookup.arrived := by
  induction lookups generalizing start with
  | nil => cases member
  | cons first rest ih =>
      obtain ⟨since, forward, later⟩ := order
      rcases List.mem_cons.mp member with rfl | member
      · exact ⟨since, forward⟩
      · obtain ⟨below, ahead⟩ := ih later member
        exact ⟨by omega, ahead⟩

/-- A lookup is asked for after the earlier ones arrived. -/
theorem InOrder.arrived_le {before rest : List (Lookup ε α)} (order : InOrder start (before ++ lookup :: rest))
    {read : Lookup ε α} (member : read ∈ before) : read.arrived ≤ lookup.asked := by
  induction before generalizing start with
  | nil => cases member
  | cons first before ih =>
      obtain ⟨since, forward, later⟩ := order
      rcases List.mem_cons.mp member with rfl | member
      · exact (later.bounds (by simp)).1
      · exact ih later member

/-- Lookups that are apart are few. -/
theorem length_mul_le {stop : ℕ}
    (apart : lookups.Pairwise fun earlier later => earlier.arrived + ttl ≤ later.asked)
    (inside : ∀ lookup ∈ lookups, start ≤ lookup.asked ∧ lookup.asked ≤ lookup.arrived ∧
      lookup.asked ≤ stop) : lookups.length * ttl ≤ stop - start + ttl := by
  induction lookups generalizing start with
  | nil =>
      rw [List.length_nil, Nat.zero_mul]
      exact Nat.zero_le _
  | cons first rest ih =>
      obtain ⟨behind, rest_apart⟩ := List.pairwise_cons.mp apart
      have here := inside first List.mem_cons_self
      have later : ∀ lookup ∈ rest, start + ttl ≤ lookup.asked ∧ lookup.asked ≤ lookup.arrived ∧
          lookup.asked ≤ stop := by
        intro lookup member
        have gap := behind lookup member
        have bounds := inside lookup (List.mem_cons_of_mem _ member)
        omega
      have fewer := ih rest_apart later
      rw [List.length_cons, Nat.add_mul, Nat.one_mul]
      cases rest with
      | nil =>
          rw [List.length_nil, Nat.zero_mul]
          omega
      | cons second rest =>
          have room := later second List.mem_cons_self
          omega

/-- **Over any span, the source answers once for each time to live in it, and once more.** -/
theorem reads_few {stop : ℕ} (order : InOrder start lookups)
    (inside : ∀ lookup ∈ lookups, lookup.asked ≤ stop) :
    (reads ttl none lookups).length * ttl ≤ stop - start + ttl := by
  refine length_mul_le (reads_apart order nofun) fun lookup member => ?_
  have among := (reads_sublist ttl none lookups).subset member
  obtain ⟨since, forward⟩ := order.bounds among
  exact ⟨since, forward, inside lookup among⟩

end Rules

end Slot

end WaitingRoom.Concurrency
