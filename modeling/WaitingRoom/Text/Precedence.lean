import WaitingRoom.Text.Lines

/-!
# Two readings of a chain of clauses

A chain joins clauses with *or* and *and*, without parentheses. Read from the left, each clause
widens or narrows everything before it (`fromLeft`). Where *and* binds tighter, the chain is cut
into the runs between its *or*s, and it holds when some run holds (`tighter`). The two agree exactly
when the last run that holds is followed by no *and* with a clause that fails
(`tighter_eq_fromLeft_iff`).
-/

set_option autoImplicit false

namespace WaitingRoom.Text

variable {α : Type}

/-- How a clause is joined to what stands before it. -/
inductive Connective where
  | or
  | and
  deriving DecidableEq

/-- Join a clause's value to a value. -/
def Connective.join (value : Bool) : Connective → Bool → Bool
  | .or, next => value || next
  | .and, next => value && next

/-- The value of a chain read from the left. -/
def fromLeft (holds : α → Bool) (first : α) (rest : List (Connective × α)) : Bool :=
  rest.foldl (fun value part => part.1.join value (holds part.2)) (holds first)

/-- The runs of a chain between its *or*s. -/
def runs : α → List (Connective × α) → List (List α)
  | first, [] => [[first]]
  | first, (.or, next) :: rest => [first] :: runs next rest
  | first, (.and, next) :: rest => consLine first (runs next rest)

/-- The value of a chain whose *and* binds tighter. -/
def tighter (holds : α → Bool) (first : α) (rest : List (Connective × α)) : Bool :=
  (runs first rest).any fun run => run.all holds

/-- After the last run that holds, no clause that was joined with *and* fails. -/
def Undisturbed (holds : α → Bool) (groups : List (List α)) : Prop :=
  ∀ before run after, groups = before ++ run :: after → run.all holds →
    (∀ later ∈ after, later.all holds = false) → ∀ later ∈ after, later.tail.all holds

variable {holds : α → Bool}

/-! ## Reading the runs from the left -/

/-- Join a whole run to a value: its first clause with *or*, the others with *and*. -/
def absorb (holds : α → Bool) (value : Bool) : List α → Bool
  | [] => value
  | first :: others => (value || holds first) && others.all holds

/-- The chain read from the left is its runs read from the left. -/
theorem runs_from_left (holds : α → Bool) (first : α) (rest : List (Connective × α)) :
    ∃ others more, runs first rest = (first :: others) :: more ∧ ∀ value,
      more.foldl (absorb holds) (value && others.all holds)
        = rest.foldl (fun value part => part.1.join value (holds part.2)) value := by
  induction rest generalizing first with
  | nil => exact ⟨[], [], rfl, fun value => Bool.and_true value⟩
  | cons part rest ih =>
      obtain ⟨connective, next⟩ := part
      obtain ⟨others, more, cut, read⟩ := ih next
      cases connective with
      | or =>
          refine ⟨[], (next :: others) :: more, by rw [runs, cut], fun value => ?_⟩
          rw [List.all_nil, Bool.and_true, List.foldl_cons, List.foldl_cons, absorb, read]
          rfl
      | and =>
          refine ⟨next :: others, more, by rw [runs, cut, consLine], fun value => ?_⟩
          rw [List.all_cons, ← Bool.and_assoc, read]
          rfl

theorem fromLeft_eq_absorb (holds : α → Bool) (first : α) (rest : List (Connective × α)) :
    fromLeft holds first rest = (runs first rest).foldl (absorb holds) false := by
  obtain ⟨others, more, cut, read⟩ := runs_from_left holds first rest
  rw [cut, List.foldl_cons, absorb, Bool.false_or, read, fromLeft]

theorem ne_nil_of_mem_runs {first : α} {rest : List (Connective × α)} {run : List α}
    (mem : run ∈ runs first rest) : run ≠ [] := by
  induction rest generalizing first run with
  | nil => exact List.mem_singleton.mp mem ▸ List.cons_ne_nil _ _
  | cons part rest ih =>
      obtain ⟨connective, next⟩ := part
      obtain ⟨others, more, cut, -⟩ := runs_from_left (fun _ => true) next rest
      cases connective with
      | or =>
          rcases List.mem_cons.mp mem with rfl | later
          · exact List.cons_ne_nil _ _
          · exact ih later
      | and =>
          rw [runs, cut, consLine] at mem
          rcases List.mem_cons.mp mem with rfl | later
          · exact List.cons_ne_nil _ _
          · exact ih (cut ▸ List.mem_cons_of_mem _ later)

/-! ## Agreement -/

section Agreement

variable {groups : List (List α)}

/-- A run joined to a value holds only where the value or the run does. -/
theorem absorb_le {value : Bool} {run : List α} (nonempty : run ≠ [])
    (accepted : absorb holds value run) : value = true ∨ run.all holds = true := by
  cases run with
  | nil => exact absurd rfl nonempty
  | cons first others =>
      rw [absorb, Bool.and_eq_true, Bool.or_eq_true] at accepted
      rcases accepted with ⟨earlier | here, narrowed⟩
      · exact .inl earlier
      · exact .inr (by rw [List.all_cons, here, narrowed]; rfl)

theorem any_of_foldl_absorb (nonempty : ∀ run ∈ groups, run ≠ [])
    (accepted : groups.foldl (absorb holds) false = true) :
    (groups.any fun run => run.all holds) = true := by
  induction groups using List.reverseRecOn with
  | nil => exact absurd accepted Bool.false_ne_true
  | append_singleton groups run ih =>
      rw [List.foldl_append, List.foldl_cons, List.foldl_nil] at accepted
      rw [List.any_append, Bool.or_eq_true]
      rcases absorb_le (nonempty run (by simp)) accepted with earlier | here
      · exact .inl (ih (fun run mem => nonempty run (by simp [mem])) earlier)
      · exact .inr (by simpa using here)

/-- A run that does not hold leaves a value as its narrowing clauses do. -/
theorem absorb_of_fails {value : Bool} {run : List α} (nonempty : run ≠ [])
    (fails : run.all holds = false) : absorb holds value run = (value && run.tail.all holds) := by
  cases run with
  | nil => exact absurd rfl nonempty
  | cons first others =>
      rw [List.all_cons] at fails
      rw [absorb, List.tail_cons]
      cases here : holds first with
      | false => rw [Bool.or_false]
      | true =>
          rw [here, Bool.true_and] at fails
          rw [fails, Bool.and_false, Bool.and_false]

/-- A run that holds makes the value true. -/
theorem absorb_of_holds {value : Bool} {run : List α} (nonempty : run ≠ [])
    (here : run.all holds = true) : absorb holds value run = true := by
  cases run with
  | nil => exact absurd rfl nonempty
  | cons first others =>
      rw [List.all_cons, Bool.and_eq_true] at here
      rw [absorb, here.1, here.2, Bool.or_true, Bool.and_true]

/-- The last run that holds. -/
theorem exists_last_run (accepted : ∃ run ∈ groups, run.all holds = true) :
    ∃ before run after, groups = before ++ run :: after ∧ run.all holds = true ∧
      ∀ later ∈ after, later.all holds = false := by
  induction groups using List.reverseRecOn with
  | nil => obtain ⟨run, mem, -⟩ := accepted; exact absurd mem List.not_mem_nil
  | append_singleton groups last ih =>
      cases here : last.all holds with
      | true => exact ⟨groups, last, [], rfl, here, fun _ mem => absurd mem List.not_mem_nil⟩
      | false =>
          obtain ⟨run, mem, holding⟩ := accepted
          rcases List.mem_append.mp mem with earlier | only
          · obtain ⟨before, found, after, rfl, accepted, refused⟩ := ih ⟨run, earlier, holding⟩
            refine ⟨before, found, after ++ [last], by simp, accepted, fun later mem => ?_⟩
            rcases List.mem_append.mp mem with inside | only
            · exact refused later inside
            · exact List.mem_singleton.mp only ▸ here
          · rw [List.mem_singleton.mp only, here] at holding
            exact absurd holding Bool.false_ne_true

/-- Behind a run that fails, the earlier runs are undisturbed if its narrowing clauses hold. -/
theorem undisturbed_append_of_fails {last : List α} (fails : last.all holds = false) :
    Undisturbed holds (groups ++ [last]) ↔
      Undisturbed holds groups ∧
        ((∃ run ∈ groups, run.all holds = true) → last.tail.all holds = true) := by
  constructor
  · refine fun whole => ⟨fun before run after split here refused later mem => ?_, fun accepted => ?_⟩
    · refine whole before run (after ++ [last]) (by simp [split]) here (fun other inside => ?_) later
        (List.mem_append_left _ mem)
      rcases List.mem_append.mp inside with old | new
      · exact refused other old
      · exact List.mem_singleton.mp new ▸ fails
    · obtain ⟨before, run, after, rfl, here, refused⟩ := exists_last_run accepted
      refine whole before run (after ++ [last]) (by simp) here (fun other inside => ?_) last
        (by simp)
      rcases List.mem_append.mp inside with old | new
      · exact refused other old
      · exact List.mem_singleton.mp new ▸ fails
  · rintro ⟨earlier, narrowed⟩ before run after split here refused later mem
    rcases List.eq_nil_or_concat after with rfl | ⟨middle, final, rfl⟩
    · exact absurd mem List.not_mem_nil
    · rw [List.concat_eq_append, ← List.cons_append, ← List.append_assoc] at split
      obtain ⟨rfl, same⟩ := List.append_inj' split rfl
      obtain rfl := List.singleton_inj.mp same
      rw [List.concat_eq_append] at mem refused
      rcases List.mem_append.mp mem with old | new
      · exact earlier before run middle rfl here
          (fun other inside => refused other (List.mem_append_left _ inside)) later old
      · rw [List.mem_singleton.mp new]
        exact narrowed ⟨run, by simp, here⟩

/-- Nothing follows a last run that holds. -/
theorem undisturbed_append_of_holds {last : List α} (accepted : last.all holds = true) :
    Undisturbed holds (groups ++ [last]) := by
  intro before run after split here refused later mem
  rcases List.eq_nil_or_concat after with rfl | ⟨middle, final, rfl⟩
  · exact absurd mem List.not_mem_nil
  · rw [List.concat_eq_append, ← List.cons_append, ← List.append_assoc] at split
    obtain rfl := List.singleton_inj.mp (List.append_inj' split rfl).2
    have failed := refused last (by simp)
    rw [accepted] at failed
    exact absurd failed.symm Bool.false_ne_true

theorem any_eq_absorb_iff (nonempty : ∀ run ∈ groups, run ≠ []) :
    (groups.any fun run => run.all holds) = groups.foldl (absorb holds) false ↔
      Undisturbed holds groups := by
  induction groups using List.reverseRecOn with
  | nil =>
      refine iff_of_true rfl fun before run after split => ?_
      exact absurd split.symm (by simp)
  | append_singleton groups last ih =>
      have earlier : ∀ run ∈ groups, run ≠ [] := fun run mem =>
        nonempty run (List.mem_append_left _ mem)
      have own : last ≠ [] := nonempty last (by simp)
      rw [List.foldl_append, List.foldl_cons, List.foldl_nil, List.any_append, List.any_cons,
        List.any_nil, Bool.or_false]
      cases here : last.all holds with
      | true =>
          rw [absorb_of_holds own here, Bool.or_true]
          exact iff_of_true rfl (undisturbed_append_of_holds here)
      | false =>
          rw [absorb_of_fails own here, Bool.or_false, undisturbed_append_of_fails here,
            ← ih earlier]
          cases narrowed : last.tail.all holds with
          | true => rw [Bool.and_true]; exact ⟨fun same => ⟨same, fun _ => rfl⟩, And.left⟩
          | false =>
              rw [Bool.and_false]
              constructor
              · intro refusedAll
                refine ⟨?_, fun accepted => ?_⟩
                · rw [refusedAll]
                  by_contra differ
                  have folded : groups.foldl (absorb holds) false = true :=
                    (Bool.not_eq_false _).mp fun refused => differ refused.symm
                  rw [any_of_foldl_absorb earlier folded] at refusedAll
                  exact Bool.false_ne_true refusedAll.symm
                · rw [List.any_eq_true.mpr accepted] at refusedAll
                  exact refusedAll.symm
              · rintro ⟨-, impossible⟩
                by_contra accepted
                exact Bool.false_ne_true (impossible
                  (List.any_eq_true.mp ((Bool.not_eq_false _).mp accepted)))

end Agreement

/-- **The two readings agree** exactly when no *and* behind the last run that holds fails. -/
theorem tighter_eq_fromLeft_iff (holds : α → Bool) (first : α) (rest : List (Connective × α)) :
    tighter holds first rest = fromLeft holds first rest ↔ Undisturbed holds (runs first rest) := by
  rw [tighter, fromLeft_eq_absorb]
  exact any_eq_absorb_iff fun _ mem => ne_nil_of_mem_runs mem

/-! ## Tokens -/

section Tokens

variable {τ : Type} [DecidableEq τ]

/-- The tokens of a chain whose connectives are words. -/
def chainTokens (word : Connective → τ) (first : List τ) (rest : List (Connective × List τ)) :
    List τ :=
  first ++ rest.flatMap fun part => word part.1 :: part.2

/-- Cut tokens at one word, and what is between at the other. -/
def cutRuns (word : Connective → τ) (tokens : List τ) : List (List (List τ)) :=
  (tokens.splitOn (word .or)).map fun run => run.splitOn (word .and)

/-- **Cutting the tokens of a chain gives its runs.** -/
theorem cutRuns_chainTokens {word : Connective → τ} (distinct : word .or ≠ word .and)
    (first : List τ) (rest : List (Connective × List τ))
    (plain : ∀ connective, word connective ∉ first)
    (plainRest : ∀ part ∈ rest, ∀ connective, word connective ∉ part.2) :
    cutRuns word (chainTokens word first rest) = runs first rest := by
  induction rest generalizing first with
  | nil =>
      rw [chainTokens, List.flatMap_nil, List.append_nil, cutRuns,
        List.splitOn_eq_singleton (plain .or), List.map_singleton,
        List.splitOn_eq_singleton (plain .and), runs]
  | cons part rest ih =>
      obtain ⟨connective, next⟩ := part
      have later := ih next (plainRest _ List.mem_cons_self)
        fun part mem => plainRest part (List.mem_cons_of_mem _ mem)
      have unfolded : chainTokens word first ((connective, next) :: rest)
          = first ++ word connective :: chainTokens word next rest := by
        rw [chainTokens, List.flatMap_cons, List.cons_append, chainTokens]
      rw [unfolded]
      rw [cutRuns] at later ⊢
      cases connective with
      | or =>
          rw [List.splitOn_append_cons_self_of_not_mem (plain .or), List.map_cons, later,
            List.splitOn_eq_singleton (plain .and), runs]
      | and =>
          obtain ⟨run, more, cut⟩ :=
            List.exists_cons_of_ne_nil (List.splitOn_ne_nil (word .or) (chainTokens word next rest))
          rw [cut, List.map_cons] at later
          rw [splitOn_append_of_not_mem (plain .or), List.splitOn_cons_eq_if_modifyHead,
            if_neg (by simpa using fun same => distinct same.symm), cut, List.modifyHead_cons,
            List.modifyHead_cons, List.map_cons,
            List.splitOn_append_cons_self_of_not_mem (plain .and), runs, ← later]
          rfl

end Tokens

/-- The runs hold the clauses of the chain, in their order. -/
theorem flatten_runs (first : α) (rest : List (Connective × α)) :
    (runs first rest).flatten = first :: rest.map Prod.snd := by
  induction rest generalizing first with
  | nil => rfl
  | cons part rest ih =>
      obtain ⟨connective, next⟩ := part
      obtain ⟨others, more, cut, -⟩ := runs_from_left (fun _ => true) next rest
      have later := ih next
      rw [cut] at later
      cases connective with
      | or => rw [runs, cut, List.flatten_cons, later]; rfl
      | and => rw [runs, cut, consLine, List.flatten_cons, List.cons_append, ← List.flatten_cons, later]; rfl

/-- Where the *and*s stand first, the first run holds them all. -/
theorem runs_ands_first (first : α) {ands ors : List (Connective × α)}
    (narrow : ∀ part ∈ ands, part.1 = .and) (widen : ∀ part ∈ ors, part.1 = .or) :
    runs first (ands ++ ors) = (first :: ands.map Prod.snd) :: ors.map fun part => [part.2] := by
  induction ands generalizing first with
  | nil =>
      induction ors generalizing first with
      | nil => rfl
      | cons part ors ih =>
          obtain ⟨connective, next⟩ := part
          obtain rfl : connective = .or := widen _ List.mem_cons_self
          have later := ih (fun part mem => widen part (List.mem_cons_of_mem _ mem)) next
          rw [List.nil_append] at later ⊢
          rw [runs, later]
          rfl
  | cons part ands ih =>
      obtain ⟨connective, next⟩ := part
      obtain rfl : connective = .and := narrow _ List.mem_cons_self
      rw [List.cons_append, runs, ih next fun part mem => narrow part (List.mem_cons_of_mem _ mem)]
      rfl

/-- Runs commute with a renaming of the clauses. -/
theorem runs_map {β : Type} (rename : α → β) (first : α) (rest : List (Connective × α)) :
    runs (rename first) (rest.map fun part => (part.1, rename part.2))
      = (runs first rest).map (List.map rename) := by
  induction rest generalizing first with
  | nil => rfl
  | cons part rest ih =>
      obtain ⟨connective, next⟩ := part
      obtain ⟨others, more, cut, -⟩ := runs_from_left (fun _ => true) next rest
      cases connective with
      | or => rw [List.map_cons, runs, runs, List.map_cons, ih]; rfl
      | and => rw [List.map_cons, runs, runs, ih, cut]; rfl

end WaitingRoom.Text
