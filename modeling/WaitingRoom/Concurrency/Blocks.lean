import WaitingRoom.Concurrency.Pool
import Mathlib.Algebra.Order.Ring.Cast
import Mathlib.Tactic.Linarith

/-!
# Numbers handed out in blocks

Many threads draw numbers from one counter. A thread claims a block by adding the block's
size to the counter in one call, and then takes the numbers of the block one by one, the
`k`-th with its `k`-th call after the claim. No thread claims twice.

A number is then never taken twice (`unique_of_takes`), whichever calls fail: blocks of
different threads do not overlap because the counter only grows between two claims, and
within a thread the calls after the one claim have different indices.
-/

set_option autoImplicit false

namespace WaitingRoom.Concurrency

variable {I : Interface} {σ Job : Type} {log : List (Entry I σ Job)}

/-- With one claim in a history, a later call is further behind the claim. -/
theorem index_lt_of_later {ε : Type} {isClaim : ε → Prop} {taken taken' rest rest' newer : List ε}
    {claim claim' take : ε} (claims : isClaim claim) (unclaimed : ∀ x ∈ taken', ¬ isClaim x)
    (once : ∀ x ∈ rest', ¬ isClaim x)
    (whole : taken' ++ claim' :: rest' = newer ++ take :: (taken ++ claim :: rest)) :
    taken.length < taken'.length := by
  have regrouped : taken' ++ claim' :: rest' = (newer ++ take :: taken) ++ claim :: rest := by
    rw [whole, List.append_assoc, List.cons_append]
  rcases List.append_eq_append_iff.mp regrouped with ⟨between, longer, tail⟩ |
    ⟨between, longer, tail⟩
  · cases between with
    | nil =>
        rw [List.append_nil] at longer
        rw [← longer, List.length_append, List.length_cons]
        omega
    | cons first between =>
        -- the older claim would lie below the newer one
        obtain ⟨-, below⟩ := List.cons_eq_cons.mp tail
        exact absurd claims (once claim (by rw [below]; simp))
  · cases between with
    | nil =>
        rw [List.append_nil] at longer
        rw [longer, List.length_append, List.length_cons]
        omega
    | cons first between =>
        -- the older claim would lie among the calls after the newer one
        obtain ⟨rfl, -⟩ := List.cons_eq_cons.mp tail
        exact absurd claims (unclaimed claim (by rw [longer]; simp))

/-- Of two different entries of a log, one comes after the other. -/
theorem exists_split_of_ne {first second : Entry I σ Job} (member : first ∈ log)
    (member' : second ∈ log) (differ : first ≠ second) :
    (∃ newer older, log = newer ++ first :: older ∧ second ∈ older) ∨
      ∃ newer older, log = newer ++ second :: older ∧ first ∈ older := by
  obtain ⟨newer, older, rfl⟩ := List.append_of_mem member
  rcases List.mem_append.mp member' with fresh | here
  · obtain ⟨newer', between, rfl⟩ := List.append_of_mem fresh
    refine .inr ⟨newer', between ++ first :: older, by simp, ?_⟩
    exact List.mem_append_right _ List.mem_cons_self
  · rcases List.mem_cons.mp here with same | before
    · exact absurd same.symm differ
    · exact .inl ⟨newer, older, rfl, before⟩

/-- Claims that each find no claim in their thread's history are one to a thread. -/
theorem once_of_fresh (isClaim : Exchange I → Prop)
    (fresh : ∀ newer claim older, log = newer ++ claim :: older → isClaim claim.exchange →
      ∀ x ∈ history older claim.thread, ¬ isClaim x) {claim claim' : Entry I σ Job}
    (member : claim ∈ log) (member' : claim' ∈ log) (claims : isClaim claim.exchange)
    (claims' : isClaim claim'.exchange) (same : claim.thread = claim'.thread) : claim = claim' := by
  by_contra differ
  rcases exists_split_of_ne member member' differ with ⟨_, _, whole, below⟩ | ⟨_, _, whole, below⟩
  · exact fresh _ _ _ whole claims _ (mem_history.mpr ⟨claim', below, same.symm, rfl⟩) claims'
  · exact fresh _ _ _ whole claims' _ (mem_history.mpr ⟨claim, below, same, rfl⟩) claims

/-! ## Taking a number -/

section Takes

variable {κ : Type} [Semiring κ] [LinearOrder κ] [IsStrictOrderedRing κ]

/-- A call that takes `number`, after the entries `older`: it is the `index`-th call of its
thread behind the claim of a block that `level` grew by. -/
structure Takes (isClaim : Exchange I → Prop) (level : σ → κ) (older : List (Entry I σ Job))
    (thread : ℕ) (number : κ) (claim : Entry I σ Job) : Prop where
  member : claim ∈ older
  mine : claim.thread = thread
  claims : isClaim claim.exchange
  position : ∃ taken rest size, history older thread = taken ++ claim.exchange :: rest ∧
    (∀ x ∈ taken, ¬ isClaim x) ∧ (∀ x ∈ rest, ¬ isClaim x) ∧ taken.length < size ∧
    number = level claim.before + (taken.length : κ) ∧
    level claim.before + (size : κ) ≤ level claim.after

/-- What a log of takes needs: a thread claims once, and the counter does not fall between two
claims. -/
structure ClaimsApart (isClaim : Exchange I → Prop) (level : σ → κ) (log : List (Entry I σ Job)) :
    Prop where
  once : ∀ claim ∈ log, ∀ claim' ∈ log, isClaim claim.exchange → isClaim claim'.exchange →
    claim.thread = claim'.thread → claim = claim'
  grows : ∀ newer claim older claim', log = newer ++ claim :: older → claim' ∈ older →
    isClaim claim.exchange → isClaim claim'.exchange → level claim'.after ≤ level claim.before

variable {isClaim : Exchange I → Prop} {level : σ → κ} {older older' : List (Entry I σ Job)}
  {take take' claim claim' : Entry I σ Job} {number : κ}

/-- Two takes of one thread have different numbers. -/
theorem Takes.ne_of_same_thread (apart : ClaimsApart isClaim level log)
    {newer newer' : List (Entry I σ Job)} (whole : log = newer ++ take :: older)
    (between : older = newer' ++ take' :: older')
    (takes : Takes isClaim level older take.thread number claim)
    (takes' : Takes isClaim level older' take'.thread number claim')
    (same : take.thread = take'.thread) : False := by
  obtain ⟨taken, rest, size, split, unclaimed, once, -, number_eq, -⟩ := takes.position
  obtain ⟨taken', rest', size', split', unclaimed', once', -, number_eq', -⟩ := takes'.position
  have inLog : ∀ entry ∈ older, entry ∈ log := fun entry member => by
    rw [whole]
    exact List.mem_append_right _ (List.mem_cons_of_mem _ member)
  have inOlder : ∀ entry ∈ older', entry ∈ older := fun entry member => by
    rw [between]
    exact List.mem_append_right _ (List.mem_cons_of_mem _ member)
  -- both take from the one block of the thread
  obtain rfl := apart.once claim (inLog _ takes.member) claim' (inLog _ (inOlder _ takes'.member))
    takes.claims takes'.claims (by rw [takes.mine, takes'.mine, same])
  have both : taken ++ claim.exchange :: rest = history newer' take.thread ++
      take'.exchange :: (taken' ++ claim.exchange :: rest') := by
    rw [← split, between, history_append, same, history_cons_self, split']
  have later : taken'.length < taken.length :=
    index_lt_of_later takes'.claims unclaimed once both
  rw [number_eq] at number_eq'
  have equal : (taken.length : κ) = taken'.length := add_left_cancel number_eq'
  exact absurd (Nat.cast_injective equal) later.ne'

/-- Blocks of different threads do not overlap. -/
theorem Takes.ne_of_claims_apart (apart : ClaimsApart isClaim level log)
    {newer newest : List (Entry I σ Job)} {thread thread' : ℕ}
    (whole : log = newest ++ claim :: newer) (below : claim' ∈ newer)
    (takes : Takes isClaim level older thread number claim)
    (takes' : Takes isClaim level older' thread' number claim') : False := by
  obtain ⟨taken, -, size, -, -, -, -, number_eq, -⟩ := takes.position
  obtain ⟨taken', -, size', -, -, -, room', number_eq', fits'⟩ := takes'.position
  have ordered := apart.grows newest claim newer claim' whole below takes.claims takes'.claims
  have inside : number < level claim'.after := by
    rw [number_eq']
    exact lt_of_lt_of_le (by simpa using room') fits'
  have outside : level claim.before ≤ number := by
    rw [number_eq]
    exact le_add_of_nonneg_right (Nat.cast_nonneg _)
  exact absurd (inside.trans_le (ordered.trans outside)) (lt_irrefl _)

/-- **A number is taken once.** -/
theorem unique_of_takes (apart : ClaimsApart isClaim level log) (isTake : Entry I σ Job → Prop)
    (numberOf : Entry I σ Job → κ)
    (takes : ∀ newer entry older, log = newer ++ entry :: older → isTake entry →
      ∃ claim, Takes isClaim level older entry.thread (numberOf entry) claim)
    (member : take ∈ log) (member' : take' ∈ log) (isTake_ : isTake take) (isTake' : isTake take')
    (same : numberOf take = numberOf take') : take = take' := by
  by_contra differ
  -- of two takes, one comes after the other
  suffices ordered : ∀ {take take' : Entry I σ Job} {newer older : List (Entry I σ Job)},
      log = newer ++ take :: older → take' ∈ older → isTake take → isTake take' →
      numberOf take = numberOf take' → False by
    rcases exists_split_of_ne member member' differ with ⟨newer, older, whole, below⟩ |
      ⟨newer, older, whole, below⟩
    · exact ordered whole below isTake_ isTake' same
    · exact ordered whole below isTake' isTake_ same.symm
  intro take take' newer older whole below isTake_ isTake' same
  obtain ⟨between, older', rfl⟩ := List.append_of_mem below
  obtain ⟨claim, takes₁⟩ := takes newer take _ whole isTake_
  obtain ⟨claim', takes₂⟩ := takes (newer ++ take :: between) take' older' (by simp [whole]) isTake'
  rw [← same] at takes₂
  by_cases mine : take.thread = take'.thread
  · exact takes₁.ne_of_same_thread apart whole rfl takes₂ mine
  · have inLog : claim ∈ log := by
      rw [whole]
      exact List.mem_append_right _ (List.mem_cons_of_mem _ takes₁.member)
    have inLog' : claim' ∈ log := by
      rw [whole]
      exact List.mem_append_right _ (List.mem_cons_of_mem _ (List.mem_append_right _
        (List.mem_cons_of_mem _ takes₂.member)))
    have apart' : claim ≠ claim' := by
      rintro rfl
      exact mine (takes₁.mine.symm.trans takes₂.mine)
    rcases exists_split_of_ne inLog inLog' apart' with ⟨_, _, split, under⟩ | ⟨_, _, split, under⟩
    · exact takes₁.ne_of_claims_apart apart split under takes₂
    · exact takes₂.ne_of_claims_apart apart split under takes₁

end Takes

end WaitingRoom.Concurrency
