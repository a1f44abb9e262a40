import WaitingRoom.Edge.Numbers

/-!
# Where the bar starts

The bar shows how far a visitor has come from where the page first saw them. That distance is kept in
four tiers: `localStorage`, a cookie, `sessionStorage`, and a memory that is gone with the page. It is
written to the first durable tier that takes it and to the memory, and read from the first tier that
answers. Forgetting a place clears `localStorage` only, so what the others held of it is left. The next
place starts the bar at its own distance exactly when the first of those that answers held no greater one
(`next_baseline_iff`). The memory always holds the last one (`memory_of_reached`), so that a nearer
place than the last starts the bar at the old distance, even where every tier works
(`nearer_place_keeps_baseline`).
-/

set_option autoImplicit false

namespace WaitingRoom.Page.Baseline

open Edge

/-! ## Tiers -/

/-- What becomes of a write. -/
inductive Write where
  | done
  | dropped
  | throws
  deriving DecidableEq

/-- How a tier behaves during a call. -/
structure Health where
  answers : Bool
  write : Write
  removes : Bool

/-- The texts a tier holds. -/
abbrev Tier := String → Option String

namespace Tier

/-- What a tier says of a key; a tier that throws says nothing. -/
def get (health : Health) (tier : Tier) (key : String) : Option String :=
  if health.answers then tier key else none

def put (tier : Tier) (key value : String) : Tier := Function.update tier key (some value)

/-- Write, and see whether the value can be read back. -/
def set (health : Health) (tier : Tier) (key value : String) : Tier × Bool :=
  match health.write with
  | .done => (tier.put key value, decide (get health (tier.put key value) key = some value))
  | .dropped => (tier, decide (get health tier key = some value))
  | .throws => (tier, false)

def remove (health : Health) (tier : Tier) (key : String) : Tier :=
  if health.removes then Function.update tier key none else tier

end Tier

/-- The four tiers. -/
structure Storage where
  localStorage : Tier
  cookie : Tier
  sessionStorage : Tier
  memoryStore : Tier

/-- How the durable tiers behave during a call. -/
structure Condition where
  localStorage : Health
  cookie : Health
  sessionStorage : Health

namespace Storage

/-- What the tiers that answer hold under a key, in the order they are asked. -/
def held (condition : Condition) (storage : Storage) (key : String) : List String :=
  [storage.localStorage.get condition.localStorage key, storage.cookie.get condition.cookie key,
    storage.sessionStorage.get condition.sessionStorage key, storage.memoryStore key].reduceOption

/-- The first tier that answers. -/
def readStored (condition : Condition) (storage : Storage) (key : String) : Option String :=
  match storage.localStorage.get condition.localStorage key with
  | some value => some value
  | none =>
      match storage.cookie.get condition.cookie key with
      | some value => some value
      | none =>
          match storage.sessionStorage.get condition.sessionStorage key with
          | some value => some value
          | none => storage.memoryStore key

/-- The first durable tier that takes the value, and the memory. -/
def writeStored (condition : Condition) (storage : Storage) (key value : String) : Storage :=
  let (localStorage, kept) := storage.localStorage.set condition.localStorage key value
  let storage := { storage with localStorage, memoryStore := storage.memoryStore.put key value }
  if kept then storage
  else
    let (cookie, kept) := storage.cookie.set condition.cookie key value
    let storage := { storage with cookie }
    if kept then storage
    else { storage with sessionStorage := (storage.sessionStorage.set condition.sessionStorage key value).1 }

theorem readStored_eq (condition : Condition) (storage : Storage) (key : String) :
    storage.readStored condition key = (storage.held condition key).head? := by
  rw [readStored, held]
  cases storage.localStorage.get condition.localStorage key with
  | some value => rfl
  | none =>
      cases storage.cookie.get condition.cookie key with
      | some value => rfl
      | none =>
          cases storage.sessionStorage.get condition.sessionStorage key with
          | some value => rfl
          | none => cases storage.memoryStore key <;> rfl

theorem memoryStore_writeStored (condition : Condition) (storage : Storage) (key value : String) :
    (storage.writeStored condition key value).memoryStore = storage.memoryStore.put key value := by
  simp only [writeStored]
  split_ifs <;> rfl

end Storage

/-! ## The bar -/

/-- `Number(text)` and `String(number)`. -/
structure Numerals where
  read : String → Number
  write : Number → String

/-- The page, as far as its bar goes. -/
structure Bar where
  /-- `none` is `null`. -/
  aheadAtStart : Option Number
  storage : Storage

def aheadAtStartKey : String := "vwr_ahead_at_start"

section Bar

variable (numerals : Numerals)

/-- `Number(readStored(AHEAD_AT_START_KEY))`, where `null` is zero. -/
def recalled (condition : Condition) (storage : Storage) : Number :=
  match storage.readStored condition aheadAtStartKey with
  | some text => numerals.read text
  | none => some (.finite 0)

/-- What drawing the queue does to the bar, for `position - serving`. -/
def renderQueue (reading writing : Condition) (difference : Number) (bar : Bar) : Bar :=
  let ahead := atLeastZero difference
  match bar.aheadAtStart with
  | some _ => bar
  | none =>
      let stored := recalled numerals reading bar.storage
      let start := if atLeast stored ahead && above stored (some (.finite 0)) then stored else ahead
      { aheadAtStart := some start
        storage := bar.storage.writeStored writing aheadAtStartKey (numerals.write start) }

end Bar

/-- What forgetting a place does to the bar. -/
def forgetPosition (health : Health) (bar : Bar) : Bar :=
  { aheadAtStart := none
    storage := { bar.storage with
      localStorage := bar.storage.localStorage.remove health aheadAtStartKey } }

/-- The page is loaded again: the durable tiers are what is left. -/
def reload (bar : Bar) : Bar :=
  { bar with aheadAtStart := none, storage := { bar.storage with memoryStore := fun _ => none } }

/-- Every history: the queue is drawn, a place is forgotten, the page is loaded again, and what the
durable tiers hold expires or is changed by another page. -/
inductive Reached (numerals : Numerals) : Bar → Prop where
  | load (localStorage cookie sessionStorage : Tier) :
      Reached numerals ⟨none, ⟨localStorage, cookie, sessionStorage, fun _ => none⟩⟩
  | render {bar : Bar} (reached : Reached numerals bar) (reading writing : Condition)
      (difference : Number) : Reached numerals (renderQueue numerals reading writing difference bar)
  | forget {bar : Bar} (reached : Reached numerals bar) (health : Health) :
      Reached numerals (forgetPosition health bar)
  | reload {bar : Bar} (reached : Reached numerals bar) : Reached numerals (reload bar)
  | elsewhere {bar : Bar} (reached : Reached numerals bar) (localStorage cookie sessionStorage : Tier) :
      Reached numerals { bar with
        storage := { bar.storage with localStorage, cookie, sessionStorage } }

/-! ## The next place -/

/-- A distance is `NaN` or at least zero. -/
theorem zero_le_of_distance {value : Number} {ahead : JsNumber} (distance : atLeastZero value = some ahead) :
    (JsNumber.finite 0).le ahead := by
  obtain ⟨value, -, rfl⟩ := Option.map_eq_some_iff.mp distance
  split_ifs with below
  · rfl
  · exact JsNumber.total below

/-- The bar starts at the distance itself unless what was stored is greater. -/
theorem start_eq_iff (stored difference : Number) :
    (if atLeast stored (atLeastZero difference) && above stored (some (.finite 0)) then stored
      else atLeastZero difference) = atLeastZero difference ↔
      above stored (atLeastZero difference) = false := by
  cases distance : atLeastZero difference with
  | none => cases stored <;> simp [atLeast, above]
  | some ahead =>
      have positive := zero_le_of_distance distance
      cases stored with
      | none => simp [atLeast, above]
      | some stored =>
          simp only [atLeast, above, Bool.and_eq_true, Bool.not_eq_true', Bool.not_eq_false']
          by_cases greater : stored.le ahead = true
          · refine ⟨fun _ => greater, fun _ => ?_⟩
            split_ifs with kept
            · rw [JsNumber.antisymm greater kept.1]
            · rfl
          · have zero : stored.le (.finite 0) = false := by
              cases low : stored.le (.finite 0) with
              | true => exact absurd (JsNumber.trans low positive) greater
              | false => rfl
            rw [if_pos ⟨JsNumber.total greater, zero⟩]
            refine ⟨fun same => ?_, fun le => absurd le greater⟩
            obtain rfl := Option.some.inj same
            exact absurd (JsNumber.refl stored) greater

/-- A place starts the bar at its own distance unless what is recalled is greater. -/
theorem renderQueue_own_iff (numerals : Numerals) {bar : Bar} (unset : bar.aheadAtStart = none)
    (reading writing : Condition) (difference : Number) :
    (renderQueue numerals reading writing difference bar).aheadAtStart = some (atLeastZero difference) ↔
      ∀ text ∈ (bar.storage.held reading aheadAtStartKey).head?,
        above (numerals.read text) (atLeastZero difference) = false := by
  have start : (renderQueue numerals reading writing difference bar).aheadAtStart
      = some (if atLeast (recalled numerals reading bar.storage) (atLeastZero difference) &&
          above (recalled numerals reading bar.storage) (some (.finite 0)) then
        recalled numerals reading bar.storage else atLeastZero difference) := by
    simp only [renderQueue, unset]
  rw [start, Option.some.injEq, start_eq_iff, recalled, Storage.readStored_eq]
  cases first : (bar.storage.held reading aheadAtStartKey).head? with
  | none =>
      refine ⟨fun _ _ member => absurd member nofun, fun _ => ?_⟩
      cases distance : atLeastZero difference with
      | none => rfl
      | some ahead =>
          have positive := zero_le_of_distance distance
          simp [above, positive]
  | some text => simp

/-! ## What the memory keeps -/

/-- The memory holds the distance the bar started at. -/
theorem memory_of_reached {numerals : Numerals} {bar : Bar} (reached : Reached numerals bar)
    {start : Number} (shown : bar.aheadAtStart = some start) :
    bar.storage.memoryStore aheadAtStartKey = some (numerals.write start) := by
  induction reached with
  | load => cases shown
  | @render bar reached reading writing difference ih =>
      simp only [renderQueue] at shown ⊢
      split at shown
      · exact ih shown
      · next unset =>
          simp only [Option.some.injEq] at shown
          rw [Storage.memoryStore_writeStored, shown, Tier.put, Function.update_self]
  | forget => cases shown
  | reload => cases shown
  | elsewhere reached localStorage cookie sessionStorage ih => exact ih shown

/-! ## What forgetting leaves -/

/-- What may happen between a place that was forgotten and the next one: the place is forgotten again,
or the page is loaded again. -/
inductive Meanwhile where
  | forgotten (health : Health)
  | reloaded

def Meanwhile.happens (bar : Bar) : Meanwhile → Bar
  | .forgotten health => forgetPosition health bar
  | .reloaded => reload bar

/-- The bar when a place was forgotten and some more happened. -/
def afterForgetting (health : Health) (meanwhile : List Meanwhile) (bar : Bar) : Bar :=
  meanwhile.foldl Meanwhile.happens (forgetPosition health bar)

/-- `localStorage` took a removal. -/
def Meanwhile.clears : Meanwhile → Bool
  | .forgotten health => health.removes
  | .reloaded => false

/-- The memory is gone. -/
def Meanwhile.empties : Meanwhile → Bool
  | .forgotten _ => false
  | .reloaded => true

/-- What is left of a place, in the order the tiers are asked: of those that held the key when it was
forgotten and that answer now, `localStorage` where it took no removal, the cookie, `sessionStorage`,
and the memory of the page that has not been loaded again. -/
def leftBehind (health : Health) (meanwhile : List Meanwhile) (reading : Condition) (forgotten : Storage) :
    List String :=
  [if health.removes || meanwhile.any Meanwhile.clears then none
      else forgotten.localStorage.get reading.localStorage aheadAtStartKey,
    forgotten.cookie.get reading.cookie aheadAtStartKey,
    forgotten.sessionStorage.get reading.sessionStorage aheadAtStartKey,
    if meanwhile.any Meanwhile.empties then none else forgotten.memoryStore aheadAtStartKey].reduceOption

section Left

variable {bar : Bar} {health : Health}

theorem get_remove (reading : Health) (tier : Tier) (key : String) :
    (tier.remove health key).get reading key = if health.removes then none else tier.get reading key := by
  rw [Tier.remove]
  split_ifs with removed
  · rw [Tier.get, Function.update_self, ite_self]
  · rfl

/-- What is held after some more happened. -/
theorem held_foldl (meanwhile : List Meanwhile) (reading : Condition) (bar : Bar) :
    (meanwhile.foldl Meanwhile.happens bar).storage.held reading aheadAtStartKey =
      [if meanwhile.any Meanwhile.clears then none
          else bar.storage.localStorage.get reading.localStorage aheadAtStartKey,
        bar.storage.cookie.get reading.cookie aheadAtStartKey,
        bar.storage.sessionStorage.get reading.sessionStorage aheadAtStartKey,
        if meanwhile.any Meanwhile.empties then none
          else bar.storage.memoryStore aheadAtStartKey].reduceOption := by
  induction meanwhile generalizing bar with
  | nil => rfl
  | cons next meanwhile ih =>
      rw [List.foldl_cons, ih]
      cases next with
      | forgotten health =>
          simp only [Meanwhile.happens, forgetPosition, get_remove, List.any_cons, Meanwhile.clears,
            Meanwhile.empties, Bool.false_or, Bool.or_eq_true]
          congr 2
          cases health.removes <;> simp
      | reloaded =>
          simp only [Meanwhile.happens, reload, List.any_cons, Meanwhile.clears, Meanwhile.empties,
            Bool.false_or, Bool.true_or, if_true, ite_self]

theorem aheadAtStart_foldl (meanwhile : List Meanwhile) {bar : Bar} (unset : bar.aheadAtStart = none) :
    (meanwhile.foldl Meanwhile.happens bar).aheadAtStart = none := by
  induction meanwhile generalizing bar with
  | nil => exact unset
  | cons next meanwhile ih =>
      refine ih ?_
      cases next with
      | forgotten health => rfl
      | reloaded => rfl

/-- **What forgetting leaves** is what the tiers held then, less what was cleared. -/
theorem held_afterForgetting (meanwhile : List Meanwhile) (reading : Condition) :
    (afterForgetting health meanwhile bar).storage.held reading aheadAtStartKey =
      leftBehind health meanwhile reading bar.storage := by
  rw [afterForgetting, held_foldl, leftBehind]
  simp only [forgetPosition, get_remove, Bool.or_eq_true]
  congr 2
  cases health.removes <;> simp

/-- What is left of a place that was shown, where every tier that had anything had its distance. -/
theorem head_leftBehind {numerals : Numerals} (reached : Reached numerals bar) {start : Number}
    (shown : bar.aheadAtStart = some start) {meanwhile : List Meanwhile}
    (open_ : meanwhile.any Meanwhile.empties = false) (reading : Condition)
    (own : ∀ tier ∈ [bar.storage.localStorage, bar.storage.cookie, bar.storage.sessionStorage],
      ∀ text, tier aheadAtStartKey = some text → text = numerals.write start) :
    (leftBehind health meanwhile reading bar.storage).head? = some (numerals.write start) := by
  have kept : ∀ tier ∈ [bar.storage.localStorage, bar.storage.cookie, bar.storage.sessionStorage],
      ∀ reading : Health, tier.get reading aheadAtStartKey = none ∨
        tier.get reading aheadAtStartKey = some (numerals.write start) := by
    intro tier member reading
    rw [Tier.get]
    split_ifs
    · cases found : tier aheadAtStartKey with
      | none => exact .inl rfl
      | some text => exact .inr (congrArg some (own tier member text found))
    · exact .inl rfl
  have memory := memory_of_reached reached shown
  simp only [leftBehind, open_, Bool.false_eq_true, if_false, memory]
  -- the first that answers has the text that the memory has
  have first : (if (health.removes || meanwhile.any Meanwhile.clears) = true then none
        else bar.storage.localStorage.get reading.localStorage aheadAtStartKey) = none ∨
      (if (health.removes || meanwhile.any Meanwhile.clears) = true then none
        else bar.storage.localStorage.get reading.localStorage aheadAtStartKey) =
          some (numerals.write start) := by
    split_ifs
    · exact .inl rfl
    · exact kept _ (by simp) reading.localStorage
  rcases first with first | first
  · rcases kept bar.storage.cookie (by simp) reading.cookie with second | second
    · rcases kept bar.storage.sessionStorage (by simp) reading.sessionStorage with third | third
      · rw [first, second, third]
        rfl
      · rw [first, second, third]
        rfl
    · rw [first, second]
      rfl
  · rw [first]
    rfl

end Left

/-- **Whether the next place starts the bar at its own distance**: exactly when the first that is left of
the forgotten one is no greater distance. Where the forgotten place was shown, the page is still open, and
no tier had anything else, that is when the next place is no nearer than the forgotten one was at first. -/
theorem next_baseline_iff (numerals : Numerals) (bar : Bar) (reached : Reached numerals bar)
    (health : Health) (meanwhile : List Meanwhile) (reading writing : Condition) (difference : Number) :
    ((renderQueue numerals reading writing difference (afterForgetting health meanwhile bar)).aheadAtStart
        = some (atLeastZero difference) ↔
      ∀ text ∈ (leftBehind health meanwhile reading bar.storage).head?,
        above (numerals.read text) (atLeastZero difference) = false) ∧
    ∀ start, bar.aheadAtStart = some start → meanwhile.any Meanwhile.empties = false →
      (∀ tier ∈ [bar.storage.localStorage, bar.storage.cookie, bar.storage.sessionStorage],
        ∀ text, tier aheadAtStartKey = some text → text = numerals.write start) →
      ((renderQueue numerals reading writing difference (afterForgetting health meanwhile bar)).aheadAtStart
          = some (atLeastZero difference) ↔
        above (numerals.read (numerals.write start)) (atLeastZero difference) = false) := by
  have unset : (afterForgetting health meanwhile bar).aheadAtStart = none := aheadAtStart_foldl meanwhile rfl
  have starts := renderQueue_own_iff numerals unset reading writing difference
  rw [held_afterForgetting] at starts
  refine ⟨starts, fun start shown open_ own => ?_⟩
  rw [starts, head_leftBehind reached shown open_ reading own]
  simp only [Option.mem_some_iff, forall_eq']

/-! ## Two histories -/

/-- Numbers that are written as decimal digits. -/
def digits : Numerals where
  read text := some (.finite (text.toList.foldl (fun value c => value * 10 + (c.toNat - 48 : ℕ)) 0))
  write number :=
    match number with
    | some (.finite value) => value.num.toNat.repr
    | _ => "NaN"

/-- A tier that works. -/
def works : Health := ⟨true, .done, true⟩

/-- Every tier works. -/
def allWork : Condition := ⟨works, works, works⟩

/-- A visitor is drawn at some distance. -/
def shownAt (distance : ℚ) : Bar :=
  renderQueue digits allWork allWork (some (.finite distance))
    ⟨none, ⟨fun _ => none, fun _ => none, fun _ => none, fun _ => none⟩⟩

theorem reached_shownAt (distance : ℚ) : Reached digits (shownAt distance) :=
  .render (.load _ _ _) allWork allWork _

/-- A place further back than the one that was closed. -/
theorem next_baseline_sample :
    (renderQueue digits allWork allWork (some (.finite 30))
      (afterForgetting works [] (shownAt 10))).aheadAtStart = some (some (.finite 30)) :=
  (next_baseline_iff digits (shownAt 10) (reached_shownAt 10) works [] allWork allWork
    (some (.finite 30))).1.mpr (by decide +kernel)

/-- **A nearer place starts the bar at the distance of the forgotten one**, where every tier works. -/
theorem nearer_place_keeps_baseline :
    Reached digits (shownAt 10) ∧
    (renderQueue digits allWork allWork (some (.finite 4)) (forgetPosition works (shownAt 10))).aheadAtStart
      = some (some (.finite 10)) :=
  ⟨reached_shownAt 10, by decide +kernel⟩

end WaitingRoom.Page.Baseline
