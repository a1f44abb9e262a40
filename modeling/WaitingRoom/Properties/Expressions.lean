import WaitingRoom.Common.Grammar
import WaitingRoom.Store.Updates

/-!
# What the builders promise

The placeholders a built expression refers to are those it binds, its clauses say what the calls
were given, and an update and a condition can share one request (`builders_closed`). A chain of
conditions means what its methods say, each widening or narrowing the whole condition before it,
exactly where the item fails no `AND` behind the last run of clauses it satisfies
(`condition_means_iff`): a chain whose `AND`s all stand before its `OR`s always does
(`condition_means_of_ands_first`), and the guard on the open is one (`openGuard_built`).
-/

set_option autoImplicit false

namespace WaitingRoom.Expr

open Text
open Dynamo (AttributeValue Item)

/-! ## Placeholders -/

theorem mem_referenced {sigil : Char} {text placeholder : String} :
    placeholder ∈ referenced sigil text ↔
      placeholder.toList ∈ lexemesOf text ∧ placeholder.toList.head? = some sigil := by
  rw [referenced, List.mem_map]
  constructor
  · rintro ⟨lexeme, mem, rfl⟩
    obtain ⟨inside, head⟩ := List.mem_filter.mp mem
    rw [String.toList_ofList]
    exact ⟨inside, of_decide_eq_true head⟩
  · rintro ⟨inside, head⟩
    exact ⟨placeholder.toList, List.mem_filter.mpr ⟨inside, decide_eq_true head⟩,
      String.ofList_toList⟩

theorem Numbered.bound_iff {α ι : Type} {mark : String} {sources : List ι} {slot : ι → ℕ}
    {value : ι → α} {bindings : Bindings α}
    (numbered : Numbered mark (sources.map fun source => (slot source, value source)) bindings)
    (placeholder : String) :
    bindings placeholder ≠ none ↔ ∃ source ∈ sources, placeholder = slotName mark (slot source) := by
  rw [Option.ne_none_iff_exists']
  constructor
  · rintro ⟨found, bound⟩
    obtain ⟨number, mem, same⟩ := (numbered _ _).mp bound
    obtain ⟨source, inside, entry⟩ := List.mem_map.mp mem
    exact ⟨source, inside, (Prod.mk.inj entry).1 ▸ same⟩
  · rintro ⟨source, mem, same⟩
    exact ⟨value source, (numbered _ _).mpr ⟨slot source, List.mem_map_of_mem mem, same⟩⟩

/-- Every placeholder an expression refers to is bound, and every bound one is referred to. -/
structure Closed (built : Expression) : Prop where
  names : ∀ placeholder,
    placeholder ∈ referenced '#' built.expression ↔ built.names placeholder ≠ none
  values : ∀ placeholder,
    placeholder ∈ referenced ':' built.expression ↔ built.values placeholder ≠ none

/-! ## Updates -/

/-- The only placeholders in a clause are its call's. -/
theorem mem_updateTokens {sigil : Char} (isSigil : sigil = '#' ∨ sigil = ':')
    {slotted : UpdateCall × ℕ} {token : List Char} :
    token ∈ updateTokens slotted ∧ token.head? = some sigil ↔
      token = (slotName (String.ofList [sigil, 'u']) slotted.2).toList := by
  obtain ⟨call, slot⟩ := slotted
  have names : (slotName "#u" slot).toList = '#' :: 'u' :: slot.repr.toList := by simp [slotName]
  have values : (slotName ":u" slot).toList = ':' :: 'u' :: slot.repr.toList := by simp [slotName]
  have own : (slotName (String.ofList [sigil, 'u']) slot).toList
      = sigil :: 'u' :: slot.repr.toList := by simp [slotName]
  rw [own]
  constructor
  · rintro ⟨mem, head⟩
    rcases isSigil with rfl | rfl <;> cases call <;>
      simp only [updateTokens, names, values, List.mem_cons, List.not_mem_nil, or_false] at mem <;>
      grind
  · rintro rfl
    refine ⟨?_, rfl⟩
    rcases isSigil with rfl | rfl <;> cases call <;> simp [updateTokens, names, values]

/-- A token with a sigil is neither a keyword nor a comma, so it is in a clause. -/
theorem mem_sectionTokens {keyword token : List Char} {sigil : Char}
    (head : token.head? = some sigil) (noKeyword : keyword.head? ≠ some sigil)
    (noComma : sigil ≠ ',') (slotted : List (UpdateCall × ℕ)) :
    token ∈ sectionTokens keyword slotted ↔ ∃ source ∈ slotted, token ∈ updateTokens source := by
  have other : token ≠ keyword := fun same => noKeyword (same ▸ head)
  have solid : token ≠ [','] := by
    rintro rfl
    exact noComma (Option.some.inj head).symm
  rw [sectionTokens]
  split_ifs with none
  · simp [none]
  · rw [List.mem_cons, mem_separated solid]
    simp [other]

/-- Every call is in one of the two sections. -/
theorem exists_inSection {calls : List UpdateCall} {holds : UpdateCall × ℕ → Prop} :
    (∃ slotted ∈ Update.inSection true calls, holds slotted) ∨
      (∃ slotted ∈ Update.inSection false calls, holds slotted) ↔
      ∃ slotted ∈ calls.zipIdx, holds slotted := by
  constructor
  · rintro (⟨slotted, mem, here⟩ | ⟨slotted, mem, here⟩) <;>
      exact ⟨slotted, List.mem_of_mem_filter mem, here⟩
  · rintro ⟨slotted, mem, here⟩
    cases sets : slotted.1.sets with
    | true => exact .inl ⟨slotted, List.mem_filter.mpr ⟨mem, decide_eq_true sets⟩, here⟩
    | false => exact .inr ⟨slotted, List.mem_filter.mpr ⟨mem, decide_eq_true sets⟩, here⟩

/-- The placeholders an update refers to are its slots'. -/
theorem referenced_update {calls : List UpdateCall} {update : Update}
    (built : Update.Built calls update) {sigil : Char} (isSigil : sigil = '#' ∨ sigil = ':')
    (placeholder : String) :
    placeholder ∈ referenced sigil update.build.expression ↔
      ∃ slotted ∈ calls.zipIdx, placeholder = slotName (String.ofList [sigil, 'u']) slotted.2 := by
  have noSet : "SET".toList.head? ≠ some sigil := by rcases isSigil with rfl | rfl <;> decide
  have noAdd : "ADD".toList.head? ≠ some sigil := by rcases isSigil with rfl | rfl <;> decide
  have noComma : sigil ≠ ',' := by rcases isSigil with rfl | rfl <;> decide
  rw [mem_referenced, lexemesOf_build built, List.mem_append]
  constructor
  · rintro ⟨inside, head⟩
    rw [mem_sectionTokens head noSet noComma, mem_sectionTokens head noAdd noComma,
      exists_inSection] at inside
    obtain ⟨slotted, mem, token⟩ := inside
    exact ⟨slotted, mem, String.toList_inj.mp ((mem_updateTokens isSigil).mp ⟨token, head⟩)⟩
  · rintro ⟨slotted, mem, rfl⟩
    obtain ⟨token, head⟩ := (mem_updateTokens isSigil).mpr (rfl :
      (slotName (String.ofList [sigil, 'u']) slotted.2).toList = _)
    rw [mem_sectionTokens head noSet noComma, mem_sectionTokens head noAdd noComma,
      exists_inSection]
    exact ⟨⟨slotted, mem, token⟩, head⟩

theorem closed_update {calls : List UpdateCall} {update : Update}
    (built : Update.Built calls update) : Closed update.build where
  names := fun placeholder =>
    (referenced_update built (.inl rfl) placeholder).trans (built.names.bound_iff placeholder).symm
  values := fun placeholder =>
    (referenced_update built (.inr rfl) placeholder).trans (built.values.bound_iff placeholder).symm

/-! ## Conditions -/

/-- The names and the values of a chain, by the part of the chain that allocated them. -/
theorem mem_conditionTokens {token : List Char} {slotted : ConditionCall × ℕ} :
    (token ∈ conditionTokens slotted ∧ token.head? = some '#' ↔
        token = (slotName "#c" (Condition.nameSlot slotted.2)).toList) ∧
      (token ∈ conditionTokens slotted ∧ token.head? = some ':' ↔
        token = (slotName ":c" (Condition.valueSlot slotted.2)).toList) := by
  have name : ∀ slot, (slotName "#c" slot).toList = '#' :: 'c' :: slot.repr.toList := by
    simp [slotName]
  have operand : ∀ slot, (slotName ":c" slot).toList = ':' :: 'c' :: slot.repr.toList := by
    simp [slotName]
  simp only [conditionTokens, name, operand, List.mem_cons, List.not_mem_nil, or_false]
  constructor <;> constructor
  · rintro ⟨rfl | rfl | rfl, head⟩
    · rfl
    · exact absurd head (by decide)
    · exact absurd head (by simp)
  · rintro rfl
    exact ⟨.inl rfl, rfl⟩
  · rintro ⟨rfl | rfl | rfl, head⟩
    · exact absurd head (by simp)
    · exact absurd head (by decide)
    · rfl
  · rintro rfl
    exact ⟨.inr (.inr rfl), rfl⟩

/-- A token with a sigil is in the first clause or in a later one. -/
theorem mem_lexemesOf_chain {attr : String} {calls : List ConditionCall} {condition : Condition}
    (built : Condition.Built attr calls condition) {token : List Char} {sigil : Char}
    (isSigil : sigil = '#' ∨ sigil = ':') (head : token.head? = some sigil) :
    token ∈ lexemesOf condition.expression ↔
      token ∈ firstTokens ∨ ∃ slotted ∈ calls.zipIdx, token ∈ conditionTokens slotted := by
  have noWord : ∀ connective, token ≠ connectiveWord connective := by
    rintro connective rfl
    rcases isSigil with rfl | rfl <;> cases connective <;> exact absurd head (by decide)
  rw [lexemesOf_chain built, chainTokens, List.mem_append, List.mem_flatMap]
  refine or_congr_right ⟨?_, ?_⟩
  · rintro ⟨part, mem, inside⟩
    obtain ⟨slotted, own, rfl⟩ := List.mem_map.mp mem
    rcases List.mem_cons.mp inside with word | clause
    · exact absurd word (noWord _)
    · exact ⟨slotted, own, clause⟩
  · rintro ⟨slotted, own, clause⟩
    exact ⟨_, List.mem_map_of_mem own, List.mem_cons_of_mem _ clause⟩

/-- The first clause refers to the first slot's name and to no value. -/
theorem mem_firstTokens {token : List Char} :
    (token ∈ firstTokens ∧ token.head? = some '#' ↔ token = (slotName "#c" 0).toList) ∧
      ¬ (token ∈ firstTokens ∧ token.head? = some ':') := by
  have name : (slotName "#c" 0).toList = ['#', 'c', '0'] := by decide
  rw [firstTokens, name]
  refine ⟨⟨?_, ?_⟩, ?_⟩
  · rintro ⟨mem, head⟩
    simp only [List.mem_cons, List.not_mem_nil, or_false] at mem
    rcases mem with rfl | rfl | rfl | rfl
    · exact absurd head (by decide)
    · exact absurd head (by decide)
    · rfl
    · exact absurd head (by decide)
  · rintro rfl
    exact ⟨by decide, rfl⟩
  · rintro ⟨mem, head⟩
    simp only [List.mem_cons, List.not_mem_nil, or_false] at mem
    rcases mem with rfl | rfl | rfl | rfl <;> exact absurd head (by decide)

theorem closed_condition {attr : String} {calls : List ConditionCall} {condition : Condition}
    (built : Condition.Built attr calls condition) : Closed condition.build where
  names := by
    intro placeholder
    rw [mem_referenced, Option.ne_none_iff_exists']
    constructor
    · rintro ⟨inside, head⟩
      rcases (mem_lexemesOf_chain built (.inl rfl) head).mp inside with first | ⟨slotted, mem, token⟩
      · have own := String.toList_inj.mp (mem_firstTokens.1.mp ⟨first, head⟩)
        exact ⟨attr, (built.names _ _).mpr ⟨0, List.mem_cons_self, own⟩⟩
      · have own := String.toList_inj.mp (mem_conditionTokens.1.mp ⟨token, head⟩)
        exact ⟨_, (built.names _ _).mpr ⟨_, List.mem_cons_of_mem _ (List.mem_map_of_mem mem), own⟩⟩
    · rintro ⟨value, bound⟩
      obtain ⟨slot, mem, rfl⟩ := (built.names _ _).mp bound
      rcases List.mem_cons.mp mem with first | later
      · obtain ⟨rfl, rfl⟩ := Prod.mk.inj first
        obtain ⟨token, head⟩ := mem_firstTokens.1.mpr rfl
        exact ⟨(mem_lexemesOf_chain built (.inl rfl) head).mpr (.inl token), head⟩
      · obtain ⟨slotted, inside, entry⟩ := List.mem_map.mp later
        obtain ⟨rfl, rfl⟩ := Prod.mk.inj entry
        obtain ⟨token, head⟩ := mem_conditionTokens.1.mpr rfl
        exact ⟨(mem_lexemesOf_chain built (.inl rfl) head).mpr (.inr ⟨slotted, inside, token⟩), head⟩
  values := by
    intro placeholder
    rw [mem_referenced, show condition.build.values = condition.values from rfl,
      built.values.bound_iff]
    constructor
    · rintro ⟨inside, head⟩
      rcases (mem_lexemesOf_chain built (.inr rfl) head).mp inside with first | ⟨slotted, mem, token⟩
      · exact absurd ⟨first, head⟩ mem_firstTokens.2
      · exact ⟨slotted, mem, String.toList_inj.mp (mem_conditionTokens.2.mp ⟨token, head⟩)⟩
    · rintro ⟨slotted, inside, rfl⟩
      obtain ⟨token, head⟩ := mem_conditionTokens.2.mpr (rfl :
        (slotName ":c" (Condition.valueSlot slotted.2)).toList = _)
      exact ⟨(mem_lexemesOf_chain built (.inr rfl) head).mpr (.inr ⟨slotted, inside, token⟩), head⟩

/-! ## One request -/

/-- Two maps that bind no placeholder in common can be merged. -/
structure Merges {α : Type} (bindings other : Bindings α) : Prop where
  left : ∀ placeholder value, bindings placeholder = some value →
    bindings.extend other placeholder = some value
  right : ∀ placeholder value, other placeholder = some value →
    bindings.extend other placeholder = some value

theorem merges_of_numbered {α : Type} {mark otherMark : String} {entries others : List (ℕ × α)}
    {bindings other : Bindings α} (numbered : Numbered mark entries bindings)
    (otherNumbered : Numbered otherMark others other)
    (apart : ∀ slot otherSlot, slotName mark slot ≠ slotName otherMark otherSlot) :
    Merges bindings other where
  left := by
    intro placeholder value bound
    have unbound : other placeholder = none := by
      by_contra found
      obtain ⟨otherValue, alsoBound⟩ := Option.ne_none_iff_exists'.mp found
      obtain ⟨slot, -, rfl⟩ := (numbered _ _).mp bound
      obtain ⟨otherSlot, -, same⟩ := (otherNumbered _ _).mp alsoBound
      exact apart slot otherSlot same
    rw [Bindings.extend, unbound, Option.none_or, bound]
  right := by
    intro placeholder value bound
    rw [Bindings.extend, bound, Option.some_or]

/-- **The builders are closed and free of collisions.** -/
theorem builders_closed (calls : List UpdateCall) (attr : String) (chained : List ConditionCall)
    (updateFits : (Update.run calls).build.Fits)
    (conditionFits : (Condition.chain attr chained).build.Fits) :
    let update := (Update.run calls).build
    let condition := (Condition.chain attr chained).build
    (Closed update ∧ Closed condition) ∧
      (readUpdate update.names update.values update.expression
          = some ((calls.filter fun call => call.sets) ++ calls.filter fun call => !call.sets) ∧
        readRuns condition.names condition.values condition.expression
          = some (runs (firstClause attr) (clausesOf chained))) ∧
      Merges update.names condition.names ∧ Merges update.values condition.values := by
  have update := Update.built_of_fits updateFits
  have condition := Condition.built_of_fits conditionFits
  refine ⟨⟨closed_update update, closed_condition condition⟩,
    ⟨readUpdate_build update, readRuns_build condition⟩,
    merges_of_numbered update.names condition.names fun slot otherSlot same => ?_,
    merges_of_numbered update.values condition.values fun slot otherSlot same => ?_⟩
  · have marks := congrArg String.toList same
    simp [slotName] at marks
  · have marks := congrArg String.toList same
    simp [slotName] at marks

/-- Three clauses on one attribute, and a guard with both connectives. -/
theorem builders_closed_sample :
    let update := (Update.run [.set "a" (.N 1), .add "a" (.N 2), .setIfNotExists "a" (.S "b")]).build
    let condition := (Condition.chain "k" [.orEquals "a" (.N 1), .andEquals "a" (.N 1)]).build
    Closed update ∧ Closed condition :=
  (builders_closed [.set "a" (.N 1), .add "a" (.N 2), .setIfNotExists "a" (.S "b")] "k"
    [.orEquals "a" (.N 1), .andEquals "a" (.N 1)] (by unfold Expression.Fits; decide +kernel)
    (by unfold Expression.Fits; decide +kernel)).1

/-! ## What a chain means -/

/-- What the methods of a chain say: each widens or narrows the whole condition before it. -/
def meaning (attr : String) (calls : List ConditionCall) (item : Item) : Bool :=
  fromLeft (fun clause => clause.holds item) (firstClause attr) (clausesOf calls)

/-- The runs of a chain's clauses between its `OR`s. -/
def runsOf (attr : String) (calls : List ConditionCall) : List (List Dynamo.Condition) :=
  runs (firstClause attr) (clausesOf calls)

/-- **A chain means what its methods say** exactly where the item fails no `AND` behind the last run
of clauses that it satisfies. -/
theorem condition_means_iff (attr : String) (calls : List ConditionCall)
    (fits : (Condition.chain attr calls).build.Fits) (item : Item) :
    let built := (Condition.chain attr calls).build
    evaluate built.names built.values built.expression item = some (meaning attr calls item) ↔
      Undisturbed (fun clause => clause.holds item) (runsOf attr calls) := by
  intro built
  have value : evaluate built.names built.values built.expression item = some _ :=
    evaluate_build (Condition.built_of_fits fits) item
  rw [value, Option.some.injEq]
  exact tighter_eq_fromLeft_iff _ _ _

/-- A guard that either admits a new item or checks two of its attributes. -/
theorem condition_means_sample :
    let calls : List ConditionCall := [.orEquals "status" (.S "issued"), .andEquals "owner" (.S "a")]
    let built := (Condition.chain "id" calls).build
    evaluate built.names built.values built.expression Item.empty
        = some (meaning "id" calls Item.empty) ↔
      Undisturbed (fun clause => clause.holds Item.empty) (runsOf "id" calls) :=
  condition_means_iff "id" [.orEquals "status" (.S "issued"), .andEquals "owner" (.S "a")]
    (by unfold Expression.Fits; decide +kernel) Item.empty

/-- On an item with no attributes the last clause narrows nothing but the clause before it. -/
theorem and_after_or_disagrees :
    let calls : List ConditionCall := [.orEquals "status" (.S "issued"), .andEquals "owner" (.S "a")]
    let built := (Condition.chain "id" calls).build
    evaluate built.names built.values built.expression Item.empty
      ≠ some (meaning "id" calls Item.empty) := by
  decide +kernel

/-! ## The guards in use -/

/-- **A chain whose `AND`s stand before its `OR`s means what its methods say**, for every item. -/
theorem condition_means_of_ands_first {attr : String} {ands ors : List ConditionCall}
    (narrow : ∀ call ∈ ands, call.connective = .and) (widen : ∀ call ∈ ors, call.connective = .or)
    {condition : Condition} (built : Condition.Built attr (ands ++ ors) condition) (item : Item) :
    evaluate condition.names condition.values condition.expression item
      = some (meaning attr (ands ++ ors) item) := by
  have cut : runsOf attr (ands ++ ors) = (firstClause attr :: ands.map clauseOf) ::
      ors.map fun call => [clauseOf call] := by
    have narrowed : ∀ part ∈ clausesOf ands, part.1 = .and := by simpa [clausesOf] using narrow
    have widened : ∀ part ∈ clausesOf ors, part.1 = .or := by simpa [clausesOf] using widen
    have parts := runs_ands_first (firstClause attr) narrowed widened
    rw [runsOf, clausesOf, List.map_append]
    simpa [clausesOf, Function.comp_def] using parts
  rw [evaluate_build built]
  refine congrArg some ((tighter_eq_fromLeft_iff _ _ _).mpr ?_)
  intro before run after split _ _ later mem
  have behind : later ∈ ors.map fun call => [clauseOf call] := by
    rw [show runs (firstClause attr) (clausesOf (ands ++ ors)) = _ from cut] at split
    cases before with
    | nil =>
        obtain ⟨-, rest⟩ := List.cons.inj split
        exact rest ▸ mem
    | cons first before =>
        obtain ⟨-, rest⟩ := List.cons.inj split
        rw [rest]
        exact List.mem_append_right _ (List.mem_cons_of_mem _ mem)
  obtain ⟨call, -, rfl⟩ := List.mem_map.mp behind
  rfl

/-- The guard on the open, as the database reads it, is the condition the store is modelled with. -/
theorem openGuard_built (item : Item) :
    let built := (Condition.chain "shuffle_seed"
      [.andEquals "phase" (.S Phase.preQueue.asWireStr)]).build
    evaluate built.names built.values built.expression item = some (openGuard.holds item) := by
  have built : Condition.Built "shuffle_seed"
      ([.andEquals "phase" (.S Phase.preQueue.asWireStr)] ++ []) _ :=
    Condition.built_chain (by decide)
  refine condition_means_of_ands_first (fun call mem => ?_)
    (fun _ mem => absurd mem List.not_mem_nil) built item
  rw [List.mem_singleton.mp mem]
  rfl

end WaitingRoom.Expr
