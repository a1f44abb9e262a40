import WaitingRoom.Concurrency.Pool
import Mathlib.Algebra.BigOperators.Group.Finset.Piecewise
import Mathlib.Algebra.GroupWithZero.Nat
import Mathlib.Data.Finset.Lattice.Fold
import Mathlib.Data.Fintype.EquivFin

/-!
# Adding up calls thread by thread

The log interleaves the histories of its threads, so what the calls of the log add up to is the
sum of what those of each history do (`sum_log`). Two kinds of calls that balance in every
history balance in the log (`countP_log_eq`), however the threads were interleaved.
-/

set_option autoImplicit false

namespace WaitingRoom.Concurrency

variable {I : Interface} {σ Job : Type}

/-- What a log adds up to is what the histories of its threads add up to. -/
theorem sum_log (weight : Exchange I → ℕ) {bound : ℕ} (log : List (Entry I σ Job))
    (inside : ∀ entry ∈ log, entry.thread < bound) :
    (log.map fun entry => weight entry.exchange).sum =
      ∑ thread ∈ Finset.range bound, ((history log thread).map weight).sum := by
  induction log with
  | nil => simp
  | cons entry log ih =>
      have rest := ih fun later member => inside later (List.mem_cons_of_mem _ member)
      have here := Finset.mem_range.mpr (inside entry List.mem_cons_self)
      have split : ∀ thread ∈ Finset.range bound, ((history (entry :: log) thread).map weight).sum =
          (if thread = entry.thread then weight entry.exchange else 0) +
            ((history log thread).map weight).sum := by
        intro thread _
        by_cases mine : thread = entry.thread
        · rw [mine, history_cons_self, List.map_cons, List.sum_cons, if_pos rfl]
        · rw [history_cons_of_ne (Ne.symm mine), if_neg mine, Nat.zero_add]
      rw [List.map_cons, List.sum_cons, rest, Finset.sum_congr rfl split, Finset.sum_add_distrib,
        Finset.sum_ite_eq' _ _ _, if_pos here]

/-- Every thread of a log is below some bound. -/
theorem exists_thread_bound (log : List (Entry I σ Job)) :
    ∃ bound, ∀ entry ∈ log, entry.thread < bound := by
  refine ⟨(log.map Entry.thread).toFinset.sup id + 1, fun entry member => ?_⟩
  exact Nat.lt_succ_of_le (Finset.le_sup (f := id)
    (List.mem_toFinset.mpr (List.mem_map_of_mem member)))

theorem countP_eq_sum {α : Type} (counts : α → Bool) (list : List α) :
    list.countP counts = (list.map fun x => if counts x then 1 else 0).sum := by
  induction list with
  | nil => rfl
  | cons x list ih =>
      rw [List.countP_cons, List.map_cons, List.sum_cons, ih, Nat.add_comm]

/-- Two kinds of calls that balance in every history balance in the log. -/
theorem countP_log_eq {counts counts' : Exchange I → Bool} {log : List (Entry I σ Job)}
    (balanced : ∀ thread, (history log thread).countP counts = (history log thread).countP counts') :
    (log.countP fun entry => counts entry.exchange) =
      log.countP fun entry => counts' entry.exchange := by
  obtain ⟨bound, inside⟩ := exists_thread_bound log
  simp only [countP_eq_sum] at balanced ⊢
  rw [sum_log (fun exchange => if counts exchange then 1 else 0) log inside,
    sum_log (fun exchange => if counts' exchange then 1 else 0) log inside]
  exact Finset.sum_congr rfl fun thread _ => balanced thread

/-- Entries that are one to a thread have distinct threads. -/
theorem nodup_threads {first : Entry I σ Job → Bool} {log : List (Entry I σ Job)}
    (once : log.Pairwise fun late early => first late → first early → late.thread ≠ early.thread) :
    ((log.filter first).map Entry.thread).Nodup := by
  refine List.pairwise_map.mpr (List.Pairwise.filter first once |>.imp_of_mem ?_)
  intro late early late' early' differ
  exact differ (List.mem_filter.mp late').2 (List.mem_filter.mp early').2

/-- Entries that are one to a thread are no more than the entries of a kind that each of their
threads has. -/
theorem countP_le_of_threads {first second : Entry I σ Job → Bool} {log : List (Entry I σ Job)}
    (once : log.Pairwise fun late early => first late → first early → late.thread ≠ early.thread)
    (has : ∀ entry ∈ log, first entry → ∃ other ∈ log, second other ∧ other.thread = entry.thread) :
    log.countP first ≤ log.countP second := by
  have inside : (log.filter first).map Entry.thread ⊆ (log.filter second).map Entry.thread := by
    intro thread member
    obtain ⟨entry, kept, rfl⟩ := List.mem_map.mp member
    obtain ⟨inLog, is_first⟩ := List.mem_filter.mp kept
    obtain ⟨other, otherIn, is_second, same⟩ := has entry inLog is_first
    exact List.mem_map.mpr ⟨other, List.mem_filter.mpr ⟨otherIn, is_second⟩, same⟩
  rw [List.countP_eq_length_filter, List.countP_eq_length_filter]
  simpa using ((nodup_threads once).subperm inside).length_le

/-- What is no more for each key is no more in total. -/
theorem countP_le_of_keys {α β κ : Type} [DecidableEq κ] {key : α → Option κ} {key' : β → Option κ}
    {list : List α} {list' : List β}
    (each : ∀ k, list.countP (fun x => key x = some k) ≤ list'.countP fun x => key' x = some k) :
    list.countP (fun x => (key x).isSome) ≤ list'.countP fun x => (key' x).isSome := by
  have keys : (list.filterMap key).Subperm (list'.filterMap key') := by
    refine List.subperm_ext_iff.mpr fun k _ => ?_
    rw [List.count_filterMap, List.count_filterMap]
    simpa only [beq_eq_decide] using each k
  rw [← List.length_filterMap_eq_countP, ← List.length_filterMap_eq_countP]
  exact keys.length_le

/-- Counting a list is counting its indices. -/
theorem countP_eq_range {α : Type} (counts : α → Bool) (list : List α) :
    list.countP counts = ((List.range list.length).filter fun i => list[i]?.any counts).length := by
  induction list using List.reverseRecOn with
  | nil => rfl
  | append_singleton list x ih =>
      have below : ∀ i ∈ List.range list.length,
          (list ++ [x])[i]?.any counts = list[i]?.any counts := by
        intro i member
        rw [List.getElem?_append_left (List.mem_range.mp member)]
      rw [List.countP_append, ih, List.length_append, List.length_singleton, List.range_succ,
        List.filter_append, List.length_append, List.filter_congr below]
      by_cases last : counts x <;> simp [last]

/-- Entries that are one to a thread are no more than the jobs of a kind, when theirs are of it. -/
theorem countP_le_of_jobs {first : Entry I σ Job → Bool} {kind : Job → Bool} {log : List (Entry I σ Job)}
    {jobs : List Job}
    (once : log.Pairwise fun late early => first late → first early → late.thread ≠ early.thread)
    (serves : ∀ entry ∈ log, first entry → jobs[entry.thread]? = some entry.job ∧ kind entry.job) :
    log.countP first ≤ jobs.countP kind := by
  have inside : (log.filter first).map Entry.thread ⊆
      (List.range jobs.length).filter fun i => jobs[i]?.any kind := by
    intro thread member
    obtain ⟨entry, kept, rfl⟩ := List.mem_map.mp member
    obtain ⟨inLog, is_first⟩ := List.mem_filter.mp kept
    obtain ⟨found, is_kind⟩ := serves entry inLog is_first
    have bound := (List.getElem?_eq_some_iff.mp found).1
    exact List.mem_filter.mpr ⟨List.mem_range.mpr bound, by simpa [found] using is_kind⟩
  rw [countP_eq_range kind, List.countP_eq_length_filter]
  simpa using ((nodup_threads once).subperm inside).length_le

/-- What holds of every two entries of a log, later and earlier, holds pairwise. -/
theorem pairwise_of_split {α : Type} {related : α → α → Prop} {list : List α}
    (splits : ∀ newer late between early older,
      list = newer ++ late :: (between ++ early :: older) → related late early) :
    list.Pairwise related := by
  induction list with
  | nil => exact .nil
  | cons late list ih =>
      refine List.pairwise_cons.mpr ⟨?_, ih ?_⟩
      · intro early member
        obtain ⟨between, older, rfl⟩ := List.append_of_mem member
        exact splits [] late between early older rfl
      · intro newer later between early older same
        exact splits (late :: newer) later between early older (by rw [same, List.cons_append])

end WaitingRoom.Concurrency
