import WaitingRoom.Store.Tables
import Mathlib.Algebra.Order.Ring.Rat
import Mathlib.Tactic.Linarith

/-!
# What a request can do to the tables

`Effect` lists everything a request can do, and every answered call does one of these
(`respond_effect`). What a run keeps is read off it: no request takes anything back
(`Effect.grows`, in the order `Db.Grows` of the states by what they hold), and a row, a shard
or the `Counters` item changes by one kind of request only.
-/

set_option autoImplicit false

namespace WaitingRoom

open Dynamo Concurrency

namespace Db

/-- An attribute of the `Counters` item. -/
def attr (db : Db) (name : String) : Option AttributeValue := db.counters.getD .empty name

/-- A number on the `Counters` item. -/
def number (db : Db) (name : String) : ℚ := numberOf db.counters name

/-- The open has written its outputs. -/
def Opened (db : Db) : Prop := db.attr "shuffle_seed" ≠ none

instance (db : Db) : Decidable db.Opened := inferInstanceAs (Decidable (_ ≠ none))

/-- What a request can only add to: rows stay, an opened event keeps the outputs of its
open, a row keeps its digest, an admitted row stays as it is, and the shards only grow. -/
structure Grows (old new : Db) : Prop where
  counters : old.counters.isSome → new.counters.isSome
  opened : old.Opened → ∀ name ∈ CountersUpdate.openAttrs, new.attr name = old.attr name
  prequeue : ∀ requestId row, old.prequeue requestId = some row →
    new.prequeue requestId = some row
  positions : ∀ requestId row, old.positions requestId = some row →
    ∃ row', new.positions requestId = some row' ∧ (∀ digest, row.h = some digest →
      row'.h = some digest) ∧ (row.status = .admitted → row' = row)
  shards : ∀ shard, numberOf (old.shards shard) shardCountAttr ≤
    numberOf (new.shards shard) shardCountAttr
  arrivals : ∀ shard, numberOf (old.arrivals shard) shardCountAttr ≤
    numberOf (new.arrivals shard) shardCountAttr

theorem Grows.refl (db : Db) : Grows db db where
  counters := id
  opened _ _ _ := rfl
  prequeue _ _ := id
  positions _ row found := ⟨row, found, fun _ => id, fun _ => rfl⟩
  shards _ := le_rfl
  arrivals _ := le_rfl

theorem Grows.trans {a b c : Db} (first : Grows a b) (second : Grows b c) : Grows a c where
  counters := second.counters ∘ first.counters
  opened open_ name member := by
    have still : b.Opened := by
      rw [Opened, first.opened open_ "shuffle_seed" (by simp [CountersUpdate.openAttrs])]
      exact open_
    rw [second.opened still name member, first.opened open_ name member]
  prequeue requestId row := second.prequeue requestId row ∘ first.prequeue requestId row
  positions requestId row found := by
    obtain ⟨middle, foundMiddle, digest, admitted⟩ := first.positions requestId row found
    obtain ⟨last, foundLast, digest', admitted'⟩ := second.positions requestId middle foundMiddle
    refine ⟨last, foundLast, fun d same => digest' d (digest d same), fun isAdmitted => ?_⟩
    obtain rfl := admitted isAdmitted
    exact admitted' isAdmitted
  shards shard := (first.shards shard).trans (second.shards shard)
  arrivals shard := (first.arrivals shard).trans (second.arrivals shard)

theorem Grows.isOpened {old new : Db} (grows : Grows old new) (opened : old.Opened) :
    new.Opened := by
  rw [Opened, grows.opened opened "shuffle_seed" (by simp [CountersUpdate.openAttrs])]
  exact opened

end Db

/-! ## What each request changes -/

section Effects

variable {db : Db}

/-- An update of the `Counters` item changes nothing or writes the updated item. -/
theorem perform_updateCounters (update : CountersUpdate) (db : Db) :
    (perform (.updateCounters update) db).2 = db ∨
      ∃ item, updateItem db.counters update.condition update.clauses = .updated item ∧
        perform (.updateCounters update) db = (.ok (some item), { db with counters := some item }) := by
  simp only [perform]
  split
  · next item updated => exact .inr ⟨item, updated, rfl⟩
  · exact .inl rfl
  · exact .inl rfl

/-- An update of the `Counters` item that answers with an item has written it. -/
theorem perform_updateCounters_some {update : CountersUpdate} {item : Item} {db' : Db}
    (performed : (.ok (some item), db') = perform (.updateCounters update) db) :
    updateItem db.counters update.condition update.clauses = .updated item ∧
      db' = { db with counters := some item } := by
  simp only [perform] at performed
  split at performed
  · next updated =>
      obtain ⟨same, rfl⟩ := Prod.mk.inj performed
      obtain rfl := Option.some.inj (Except.ok.inj same)
      exact ⟨updated, rfl⟩
  · cases Except.ok.inj (Prod.mk.inj performed).1
  · cases (Prod.mk.inj performed).1

/-- A claim on a shard changes nothing or adds to that shard. -/
theorem perform_addShard (shard : Shard) (count : ℕ) (db : Db) :
    (perform (.addShard shard count) db).2 = db ∨
      ∃ item : Item, item shardIndexAttr = some (.N shard.val) ∧
        item shardCountAttr = some (.N (numberOf (db.shards shard) shardCountAttr + count)) ∧
        perform (.addShard shard count) db =
          (.ok item, { db with shards := Function.update db.shards shard (some item) }) := by
  cases outcome : updateItem (db.shards shard) .always (shardClauses shard count) with
  | updated item =>
      refine .inr ⟨item, updateItem_set [] outcome ?_, updateItem_add [_] outcome, ?_⟩
      · simp [Clause.attr, shardIndexAttr, shardCountAttr]
      · simp only [perform, outcome]
  | conditionFailed => exact .inl (by simp only [perform, outcome])
  | rejected => exact .inl (by simp only [perform, outcome])

/-- A claim that answers with an item has added to its shard. -/
theorem perform_addShard_ok {shard : Shard} {count : ℕ} {item : Item} {db' : Db}
    (performed : (.ok item, db') = perform (.addShard shard count) db) :
    item shardCountAttr = some (.N (numberOf (db.shards shard) shardCountAttr + count)) ∧
      db' = { db with shards := Function.update db.shards shard (some item) } := by
  simp only [perform] at performed
  split at performed
  · next updated =>
      obtain ⟨same, rfl⟩ := Prod.mk.inj performed
      obtain rfl := Except.ok.inj same
      exact ⟨updateItem_add [_] updated, rfl⟩
  · cases (Prod.mk.inj performed).1

/-- A recorded arrival changes nothing or adds one to that shard. -/
theorem perform_addArrivals (shard : Shard) (db : Db) :
    (perform (.addArrivals shard) db).2 = db ∨
      ∃ item : Item,
        item shardCountAttr = some (.N (numberOf (db.arrivals shard) shardCountAttr + 1)) ∧
        perform (.addArrivals shard) db =
          (.ok (), { db with arrivals := Function.update db.arrivals shard (some item) }) := by
  cases outcome : updateItem (db.arrivals shard) .always (shardClauses shard 1) with
  | updated item =>
      refine .inr ⟨item, ?_, by simp only [perform, outcome]⟩
      rw [updateItem_add [_] outcome, Nat.cast_one]
  | conditionFailed => exact .inl (by simp only [perform, outcome])
  | rejected => exact .inl (by simp only [perform, outcome])

/-- An arrival that was recorded has added one to its shard. -/
theorem perform_addArrivals_ok {shard : Shard} {db' : Db}
    (performed : (.ok (), db') = perform (.addArrivals shard) db) :
    ∃ item : Item,
      item shardCountAttr = some (.N (numberOf (db.arrivals shard) shardCountAttr + 1)) ∧
      db' = { db with arrivals := Function.update db.arrivals shard (some item) } := by
  simp only [perform] at performed
  split at performed
  · next item updated =>
      obtain ⟨-, rfl⟩ := Prod.mk.inj performed
      exact ⟨item, by rw [updateItem_add [_] updated, Nat.cast_one], rfl⟩
  · cases (Prod.mk.inj performed).1

/-- A row that is not there is written, and one that is stays. -/
theorem perform_putPrequeue (write : PreQueueWrite) (db : Db) :
    (db.prequeue write.requestId = none ∧ perform (.putPrequeue write) db =
      (.ok .written,
        { db with prequeue := Function.update db.prequeue write.requestId (some write.row) })) ∨
    ((db.prequeue write.requestId).isSome ∧ perform (.putPrequeue write) db = (.ok .duplicate, db)) := by
  cases found : db.prequeue write.requestId with
  | none => exact .inl ⟨rfl, by simp only [perform, found]⟩
  | some row => exact .inr ⟨rfl, by simp only [perform, found]⟩

theorem perform_putPosition (write : PositionWrite) (db : Db) :
    (db.positions write.requestId = none ∧ perform (.putPosition write) db =
      (.ok .written,
        { db with positions := Function.update db.positions write.requestId (some write.row) })) ∨
    ((db.positions write.requestId).isSome ∧ perform (.putPosition write) db = (.ok .duplicate, db)) := by
  cases found : db.positions write.requestId with
  | none => exact .inl ⟨rfl, by simp only [perform, found]⟩
  | some row => exact .inr ⟨rfl, by simp only [perform, found]⟩

/-- An admission claim admits a row that is missing or issued, and answers `repeat` at one
that is admitted. -/
theorem perform_claimAdmission (requestId : RequestId) (position : ℕ) (digest : SecretDigest)
    (db : Db) :
    (∃ row, admitRow requestId position digest (db.positions requestId) = some row ∧
      perform (.claimAdmission requestId position digest) db =
        (.ok .first,
          { db with positions := Function.update db.positions requestId (some row) })) ∨
    ((∃ row, db.positions requestId = some row ∧ row.status = .admitted) ∧
      perform (.claimAdmission requestId position digest) db = (.ok .repeat, db)) := by
  cases admits : admitRow requestId position digest (db.positions requestId) with
  | some row => exact .inl ⟨row, rfl, by simp only [perform, admits]⟩
  | none =>
      refine .inr ⟨?_, by simp only [perform, admits]⟩
      cases found : db.positions requestId with
      | none => simp [admitRow, found] at admits
      | some row =>
          refine ⟨row, rfl, ?_⟩
          cases status : row.status with
          | issued => simp [admitRow, found, status] at admits
          | admitted => rfl

/-- What an admission writes: the row it admits keeps its digest, and was not admitted. -/
theorem admitRow_eq_some {requestId : RequestId} {position : ℕ} {digest : SecretDigest}
    {old : Option PositionItem} {row : PositionItem}
    (admits : admitRow requestId position digest old = some row) :
    row.queuePosition = position ∧ row.status = .admitted ∧
      (old = none ∧ row.h = some digest ∨
        ∃ issued, old = some issued ∧ issued.status = .issued ∧ row.h = some (issued.h.getD digest)) := by
  cases old with
  | none =>
      obtain rfl := Option.some.inj admits
      exact ⟨rfl, rfl, .inl ⟨rfl, rfl⟩⟩
  | some issued =>
      simp only [admitRow] at admits
      split at admits
      · next status =>
          obtain rfl := Option.some.inj admits
          exact ⟨rfl, rfl, .inr ⟨issued, rfl, status, rfl⟩⟩
      · cases admits

/-- An update of the `Counters` item keeps the outputs of an open that has happened. -/
theorem updateItem_openAttr {update : CountersUpdate} {item : Item}
    (updated : updateItem db.counters update.condition update.clauses = .updated item)
    (opened : db.Opened) {name : String} (openAttr : name ∈ CountersUpdate.openAttrs) :
    item name = db.attr name := by
  refine updateItem_of_ne updated (CountersUpdate.attr_of_openAttr ?_ openAttr)
  rintro values rfl
  -- the guard of the open refuses an event that has a seed
  have guarded := updateItem_holds updated
  simp only [CountersUpdate.condition, openGuard, Condition.holds, Bool.and_eq_true,
    Option.isNone_iff_eq_none] at guarded
  exact opened guarded.1

/-- Adding to one shard leaves no shard smaller. -/
theorem numberOf_update_le {items : Shard → Option Item} {shard : Shard} {item : Item}
    {attr : String} {added : ℚ} (positive : 0 ≤ added)
    (counted : item attr = some (.N (numberOf (items shard) attr + added))) (other : Shard) :
    numberOf (items other) attr ≤ numberOf (Function.update items shard (some item) other) attr := by
  by_cases here : other = shard
  · subst here
    rw [Function.update_self]
    simp only [numberOf, Option.getD_some, counted, Option.bind_some, AttributeValue.asN]
    exact le_add_of_nonneg_right positive
  · rw [Function.update_of_ne here]

/-- What a request can do to the tables. -/
inductive Effect (db : Db) : Call → Db → Prop where
  | unchanged (call : Call) : Effect db call db
  | updated {update : CountersUpdate} {item : Item}
      (updated : updateItem db.counters update.condition update.clauses = .updated item) :
      Effect db (.updateCounters update) { db with counters := some item }
  | claimed {shard : Shard} {count : ℕ} {item : Item}
      (index : item shardIndexAttr = some (.N shard.val))
      (counted : item shardCountAttr =
        some (.N (numberOf (db.shards shard) shardCountAttr + count))) :
      Effect db (.addShard shard count)
        { db with shards := Function.update db.shards shard (some item) }
  | arrived {shard : Shard} {item : Item}
      (counted : item shardCountAttr =
        some (.N (numberOf (db.arrivals shard) shardCountAttr + 1))) :
      Effect db (.addArrivals shard)
        { db with arrivals := Function.update db.arrivals shard (some item) }
  | registered {write : PreQueueWrite} (absent : db.prequeue write.requestId = none) :
      Effect db (.putPrequeue write)
        { db with prequeue := Function.update db.prequeue write.requestId (some write.row) }
  | placed {write : PositionWrite} (absent : db.positions write.requestId = none) :
      Effect db (.putPosition write)
        { db with positions := Function.update db.positions write.requestId (some write.row) }
  | admitted {requestId : RequestId} {position : ℕ} {digest : SecretDigest} {row : PositionItem}
      (admits : admitRow requestId position digest (db.positions requestId) = some row) :
      Effect db (.claimAdmission requestId position digest)
        { db with positions := Function.update db.positions requestId (some row) }

/-- **Every request has one of these effects.** -/
theorem perform_effect (call : Call) (db : Db) : Effect db call (perform call db).2 := by
  cases call with
  | getCounters _ | getShard _ | getArrivals _ | getPrequeue _ | batchGetPrequeue _
  | getPosition _ _ => exact .unchanged _
  | updateCounters update =>
      rcases perform_updateCounters update db with same | ⟨item, updated, performed⟩
      · rw [same]
        exact .unchanged _
      · rw [performed]
        exact .updated updated
  | addShard shard count =>
      rcases perform_addShard shard count db with same | ⟨item, index, counted, performed⟩
      · rw [same]
        exact .unchanged _
      · rw [performed]
        exact .claimed index counted
  | addArrivals shard =>
      rcases perform_addArrivals shard db with same | ⟨item, counted, performed⟩
      · rw [same]
        exact .unchanged _
      · rw [performed]
        exact .arrived counted
  | putPrequeue write =>
      rcases perform_putPrequeue write db with ⟨absent, performed⟩ | ⟨-, performed⟩
      · rw [performed]
        exact .registered absent
      · rw [performed]
        exact .unchanged _
  | putPosition write =>
      rcases perform_putPosition write db with ⟨absent, performed⟩ | ⟨-, performed⟩
      · rw [performed]
        exact .placed absent
      · rw [performed]
        exact .unchanged _
  | claimAdmission requestId position digest =>
      rcases perform_claimAdmission requestId position digest db with
        ⟨row, admits, performed⟩ | ⟨-, performed⟩
      · rw [performed]
        exact .admitted admits
      · rw [performed]
        exact .unchanged _

/-- **Every answered call has one of these effects, whatever goes wrong.** -/
theorem respond_effect {call : Call} {choice : Choice} {past : List Db} {db' : Db}
    {answer : Except StoreError (Payload call)}
    (responds : respond call choice past db = some (answer, db')) : Effect db call db' := by
  rcases respond_state responds with rfl | rfl
  · exact .unchanged call
  · exact perform_effect call db

namespace Effect

variable {call : Call} {db' : Db}

/-- **A request takes nothing back.** -/
theorem grows (effect : Effect db call db') : db.Grows db' := by
  cases effect with
  | unchanged => exact .refl db
  | updated updated =>
      exact
        { Db.Grows.refl db with
          counters := fun _ => rfl
          opened := fun opened name member => updateItem_openAttr updated opened member }
  | claimed _ counted =>
      exact { Db.Grows.refl db with shards := numberOf_update_le (Nat.cast_nonneg _) counted }
  | arrived counted =>
      exact { Db.Grows.refl db with arrivals := numberOf_update_le zero_le_one counted }
  | @registered write absent =>
      refine { Db.Grows.refl db with prequeue := fun requestId row found => ?_ }
      have other : requestId ≠ write.requestId := by
        rintro rfl
        rw [absent] at found
        cases found
      exact (Function.update_of_ne other _ _).trans found
  | @placed write absent =>
      refine { Db.Grows.refl db with positions := fun requestId row found => ?_ }
      have other : requestId ≠ write.requestId := by
        rintro rfl
        rw [absent] at found
        cases found
      exact ⟨row, (Function.update_of_ne other _ _).trans found, fun _ => id, fun _ => rfl⟩
  | @admitted requestId position digest row admits =>
      refine { Db.Grows.refl db with positions := fun other old found => ?_ }
      by_cases here : other = requestId
      · subst here
        obtain ⟨-, -, ⟨absent, -⟩ | ⟨issued, present, status, kept⟩⟩ := admitRow_eq_some admits
        · rw [absent] at found
          cases found
        · obtain rfl := Option.some.inj (found.symm.trans present)
          refine ⟨row, Function.update_self _ _ _, fun d had => by rw [kept, had, Option.getD_some],
            fun admitted => ?_⟩
          rw [status] at admitted
          cases admitted
      · exact ⟨old, (Function.update_of_ne here _ _).trans found, fun _ => id, fun _ => rfl⟩

/-! ## Who writes what -/

/-- The `Counters` item changes by an update that landed. -/
theorem counters_cases (effect : Effect db call db') : db'.counters = db.counters ∨
    ∃ update item, call = .updateCounters update ∧
      updateItem db.counters update.condition update.clauses = .updated item ∧
      db'.counters = some item := by
  cases effect with
  | updated updated => exact .inr ⟨_, _, rfl, updated, rfl⟩
  | _ => exact .inl rfl

/-- A shard changes by a claim on it. -/
theorem shards_cases (effect : Effect db call db') (shard : Shard) :
    db'.shards shard = db.shards shard ∨
    ∃ count item, call = .addShard shard count ∧ item shardIndexAttr = some (.N shard.val) ∧
      item shardCountAttr = some (.N (numberOf (db.shards shard) shardCountAttr + count)) ∧
      db'.shards shard = some item := by
  cases effect with
  | @claimed other count item index counted =>
      by_cases here : shard = other
      · subst here
        exact .inr ⟨count, item, rfl, index, counted, Function.update_self _ _ _⟩
      · exact .inl (Function.update_of_ne here _ _)
  | _ => exact .inl rfl

/-- The arrivals change by one being recorded. -/
theorem arrivals_cases (effect : Effect db call db') :
    db'.arrivals = db.arrivals ∨ ∃ shard, call = .addArrivals shard := by
  cases effect with
  | arrived _ => exact .inr ⟨_, rfl⟩
  | _ => exact .inl rfl

/-- A pre-queue row changes by being written where none was. -/
theorem prequeue_cases (effect : Effect db call db') (requestId : RequestId) :
    db'.prequeue requestId = db.prequeue requestId ∨
    ∃ write, call = .putPrequeue write ∧ write.requestId = requestId ∧
      db.prequeue requestId = none ∧ db'.prequeue requestId = some write.row := by
  cases effect with
  | @registered write absent =>
      by_cases here : requestId = write.requestId
      · subst here
        exact .inr ⟨write, rfl, rfl, absent, Function.update_self _ _ _⟩
      · exact .inl (Function.update_of_ne here _ _)
  | _ => exact .inl rfl

/-- A position row changes by being written where none was, or by being admitted. -/
theorem positions_cases (effect : Effect db call db') (requestId : RequestId) :
    db'.positions requestId = db.positions requestId ∨
    (∃ write, call = .putPosition write ∧ write.requestId = requestId ∧
      db.positions requestId = none ∧ db'.positions requestId = some write.row) ∨
    ∃ position digest row, call = .claimAdmission requestId position digest ∧
      admitRow requestId position digest (db.positions requestId) = some row ∧
      db'.positions requestId = some row := by
  cases effect with
  | @placed write absent =>
      by_cases here : requestId = write.requestId
      · subst here
        exact .inr (.inl ⟨write, rfl, rfl, absent, Function.update_self _ _ _⟩)
      · exact .inl (Function.update_of_ne here _ _)
  | @admitted other position digest row admits =>
      by_cases here : requestId = other
      · subst here
        exact .inr (.inr ⟨position, digest, row, rfl, admits, Function.update_self _ _ _⟩)
      · exact .inl (Function.update_of_ne here _ _)
  | _ => exact .inl rfl

end Effect

end Effects

end WaitingRoom
