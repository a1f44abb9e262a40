import WaitingRoom.Concurrency.Program
import Mathlib.Data.List.Basic

/-!
# Pools of programs over one shared store

Any number of programs run against one store. A step starts a new job, or lets one running
program have its pending call answered. Nothing orders the steps, a program may stop being
scheduled for good, and the environment picks, call by call, how the store behaves
(`Choice`): which call fails, which failed write still landed, which read is stale.

A configuration carries the log of every answered call, latest first, with the store
before and after it. The log is a ghost: no program reads it, except that a stale read
returns a value the store once held. The history of one thread is its part of the log.

* `System.Reaches` is a run, under a policy that may forbid some starts and some steps;
  `System.run` executes a schedule and `System.reaches_of_run` turns it into a run.
* `Trace` is what a run leaves in its log when every job obeys a protocol: each entry was
  a legal call for its thread's history, was allowed by the policy, and was answered by
  the store. `System.Reaches.trace` is the rule: it turns facts proved program by program
  into one induction over the log.
* `System.Reaches.obeys` says what is known of a thread that is still running, or has
  returned.
-/

set_option autoImplicit false

namespace WaitingRoom.Concurrency

/-- One answered call: who made it, and the store around it. -/
structure Entry (I : Interface) (σ Job : Type) where
  thread : ℕ
  job : Job
  exchange : Exchange I
  before : σ
  after : σ

/-- A running job: what it was started as, and what is left of it. -/
structure Thread (I : Interface) (Job Out : Type) where
  job : Job
  program : Program I Out

/-- The store, the log of every answered call (latest first), and the threads. -/
structure Config (I : Interface) (σ Job Out : Type) where
  state : σ
  log : List (Entry I σ Job)
  threads : List (Thread I Job Out)

/-- One scheduling decision. -/
inductive Action (Job Choice : Type) where
  | start (job : Job)
  | advance (thread : ℕ) (choice : Choice)

/-- The programs of the jobs, and how the store answers a call under a choice of the
environment, given the states it once held and the one it is in. `none` when the choice
does not apply to the call. -/
structure System (I : Interface) (σ Job Out Choice : Type) where
  program : Job → Program I Out
  respond : (request : I.Call) → Choice → List σ → σ → Option (I.Answer request × σ)

/-- Which jobs may start, given the jobs started so far, and which steps may be taken. -/
structure Policy (I : Interface) (σ Job Choice : Type) where
  starts : List Job → Job → Prop
  steps : List (Entry I σ Job) → σ → ℕ → Job → I.Call → Choice → Prop

variable {I : Interface} {σ Job Out Choice : Type}

/-- The policy that forbids nothing. -/
def Policy.free : Policy I σ Job Choice where
  starts _ _ := True
  steps _ _ _ _ _ _ := True

instance (jobs : List Job) (job : Job) :
    Decidable ((Policy.free : Policy I σ Job Choice).starts jobs job) := isTrue trivial

instance (log : List (Entry I σ Job)) (state : σ) (thread : ℕ) (job : Job) (request : I.Call)
    (choice : Choice) :
    Decidable ((Policy.free : Policy I σ Job Choice).steps log state thread job request choice) :=
  isTrue trivial

/-! ## The log -/

/-- The exchanges of one thread, latest first. -/
def history (log : List (Entry I σ Job)) (thread : ℕ) : List (Exchange I) :=
  log.filterMap fun entry => if entry.thread = thread then some entry.exchange else none

/-- The states the store held before each logged call, latest first. -/
def past (log : List (Entry I σ Job)) : List σ := log.map Entry.before

@[simp] theorem history_nil (thread : ℕ) :
    history ([] : List (Entry I σ Job)) thread = [] := rfl

theorem history_cons_self (entry : Entry I σ Job) (log : List (Entry I σ Job)) :
    history (entry :: log) entry.thread = entry.exchange :: history log entry.thread := by
  simp [history]

theorem history_cons_of_ne {entry : Entry I σ Job} {thread : ℕ} (other : entry.thread ≠ thread)
    (log : List (Entry I σ Job)) : history (entry :: log) thread = history log thread := by
  simp [history, other]

@[simp] theorem history_append (newer older : List (Entry I σ Job)) (thread : ℕ) :
    history (newer ++ older) thread = history newer thread ++ history older thread := by
  simp [history]

/-- An exchange is in a thread's history exactly when the log has an entry of it. -/
theorem mem_history {log : List (Entry I σ Job)} {thread : ℕ} {exchange : Exchange I} :
    exchange ∈ history log thread ↔
      ∃ entry ∈ log, entry.thread = thread ∧ entry.exchange = exchange := by
  constructor
  · intro member
    obtain ⟨entry, inLog, kept⟩ := List.mem_filterMap.mp member
    by_cases mine : entry.thread = thread
    · exact ⟨entry, inLog, mine, by simpa [mine] using kept⟩
    · simp [mine] at kept
  · rintro ⟨entry, inLog, mine, rfl⟩
    exact List.mem_filterMap.mpr ⟨entry, inLog, by simp [mine]⟩

theorem mem_history_of_entry {log : List (Entry I σ Job)} {entry : Entry I σ Job}
    (member : entry ∈ log) : entry.exchange ∈ history log entry.thread :=
  mem_history.mpr ⟨entry, member, rfl, rfl⟩

/-- A split of a thread's history is a split of the log. -/
theorem exists_split_of_history {log : List (Entry I σ Job)} {thread : ℕ}
    {newer older : List (Exchange I)} {exchange : Exchange I}
    (split : history log thread = newer ++ exchange :: older) :
    ∃ newerLog entry olderLog, log = newerLog ++ entry :: olderLog ∧ entry.thread = thread ∧
      entry.exchange = exchange ∧ history newerLog thread = newer ∧
        history olderLog thread = older := by
  induction log generalizing newer with
  | nil => simp at split
  | cons entry log ih =>
      by_cases mine : entry.thread = thread
      · subst mine
        rw [history_cons_self] at split
        cases newer with
        | nil =>
            obtain ⟨same, rest⟩ := List.cons_eq_cons.mp split
            exact ⟨[], entry, log, rfl, rfl, same, rfl, rest⟩
        | cons first newer =>
            obtain ⟨same, rest⟩ := List.cons_eq_cons.mp split
            obtain ⟨newerLog, found, olderLog, rfl, foundThread, foundExchange, newerHistory,
              olderHistory⟩ := ih rest
            refine ⟨entry :: newerLog, found, olderLog, rfl, foundThread, foundExchange, ?_,
              olderHistory⟩
            rw [history_cons_self, same, newerHistory]
      · rw [history_cons_of_ne mine] at split
        obtain ⟨newerLog, found, olderLog, rfl, foundThread, foundExchange, newerHistory,
          olderHistory⟩ := ih split
        refine ⟨entry :: newerLog, found, olderLog, rfl, foundThread, foundExchange, ?_,
          olderHistory⟩
        rw [history_cons_of_ne mine, newerHistory]

/-! ## Runs -/

namespace Config

/-- The configuration before anything has run. -/
def initial (state : σ) : Config I σ Job Out := ⟨state, [], []⟩

/-- The jobs started so far, in order. -/
def jobs (c : Config I σ Job Out) : List Job := c.threads.map Thread.job

/-- Add a thread at the beginning of its program. -/
def start (sys : System I σ Job Out Choice) (c : Config I σ Job Out) (job : Job) :
    Config I σ Job Out :=
  { c with threads := c.threads ++ [⟨job, sys.program job⟩] }

/-- Record an answered call and continue its thread. -/
def advance (c : Config I σ Job Out) (thread : ℕ) (job : Job) (request : I.Call)
    (next : I.Answer request → Program I Out) (answer : I.Answer request) (state : σ) :
    Config I σ Job Out where
  state := state
  log := ⟨thread, job, ⟨request, answer⟩, c.state, state⟩ :: c.log
  threads := c.threads.set thread ⟨job, next answer⟩

/-- The job of a thread that has returned, and what it returned. -/
def result (c : Config I σ Job Out) (thread : ℕ) : Option (Job × Out) :=
  match c.threads[thread]? with
  | some ⟨job, .done outcome⟩ => some (job, outcome)
  | _ => none

theorem result_eq_some {c : Config I σ Job Out} {thread : ℕ} {job : Job} {outcome : Out} :
    c.result thread = some (job, outcome) ↔ c.threads[thread]? = some ⟨job, .done outcome⟩ := by
  simp only [result]
  split
  · next job' outcome' found => rw [found]; simp
  · next running =>
      refine ⟨nofun, fun found => ?_⟩
      exact absurd found (running job outcome)

end Config

namespace System

variable (sys : System I σ Job Out Choice)

/-- A run from `origin`, under a policy. -/
inductive Reaches (policy : Policy I σ Job Choice) (origin : Config I σ Job Out) :
    Config I σ Job Out → Prop where
  | refl : Reaches policy origin origin
  | start {c : Config I σ Job Out} (reached : Reaches policy origin c) (job : Job)
      (allowed : policy.starts c.jobs job) : Reaches policy origin (c.start sys job)
  | advance {c : Config I σ Job Out} (reached : Reaches policy origin c) {thread : ℕ} {job : Job}
      {request : I.Call} {next : I.Answer request → Program I Out} {choice : Choice}
      {answer : I.Answer request} {state : σ}
      (pending : c.threads[thread]? = some ⟨job, .call request next⟩)
      (allowed : policy.steps c.log c.state thread job request choice)
      (responds : sys.respond request choice (past c.log) c.state = some (answer, state)) :
      Reaches policy origin (c.advance thread job request next answer state)

variable {sys}
variable {policy policy' : Policy I σ Job Choice} {origin c d : Config I σ Job Out}

theorem Reaches.trans (first : sys.Reaches policy origin c) (second : sys.Reaches policy c d) :
    sys.Reaches policy origin d := by
  induction second with
  | refl => exact first
  | start _ job allowed ih => exact ih.start job allowed
  | advance _ pending allowed responds ih => exact ih.advance pending allowed responds

/-- A run under a policy is a run under a laxer one. -/
theorem Reaches.mono (run : sys.Reaches policy origin c)
    (starts : ∀ jobs job, policy.starts jobs job → policy'.starts jobs job)
    (steps : ∀ log state thread job request choice,
      policy.steps log state thread job request choice →
        policy'.steps log state thread job request choice) :
    sys.Reaches policy' origin c := by
  induction run with
  | refl => exact .refl
  | start _ job allowed ih => exact ih.start job (starts _ _ allowed)
  | advance _ pending allowed responds ih =>
      exact ih.advance pending (steps _ _ _ _ _ _ allowed) responds

theorem Reaches.free (run : sys.Reaches policy origin c) : sys.Reaches .free origin c :=
  run.mono (fun _ _ _ => trivial) fun _ _ _ _ _ _ _ => trivial

/-- A run only adds to the log. -/
theorem Reaches.log_suffix (run : sys.Reaches policy origin c) :
    ∃ newer, c.log = newer ++ origin.log := by
  induction run with
  | refl => exact ⟨[], rfl⟩
  | start _ _ _ ih => exact ih
  | advance _ _ _ _ ih =>
      obtain ⟨newer, eq⟩ := ih
      exact ⟨_ :: newer, by rw [Config.advance, eq, List.cons_append]⟩

/-- A thread keeps the job it was started with. -/
theorem Reaches.jobs_extend (run : sys.Reaches policy origin c) :
    ∃ later, c.jobs = origin.jobs ++ later := by
  induction run with
  | refl => exact ⟨[], by simp⟩
  | start _ job _ ih =>
      obtain ⟨later, eq⟩ := ih
      refine ⟨later ++ [job], ?_⟩
      simp only [Config.jobs, Config.start, List.map_append, List.map_cons, List.map_nil] at eq ⊢
      rw [eq, List.append_assoc]
  | @advance c _ thread job request next choice answer state pending _ _ ih =>
      obtain ⟨later, eq⟩ := ih
      refine ⟨later, ?_⟩
      have unchanged : (c.advance thread job request next answer state).jobs = c.jobs := by
        have here : (c.threads.map Thread.job)[thread]? = some job := by
          rw [List.getElem?_map, pending]; rfl
        obtain ⟨bound, eqJob⟩ := List.getElem?_eq_some_iff.mp here
        simp only [Config.jobs, Config.advance, List.map_set]
        conv_lhs => rw [← eqJob]
        exact List.set_getElem_self bound
      rw [unchanged, eq]

/-! ## Executing a schedule -/

section Run

variable (sys) (policy)
variable [∀ jobs job, Decidable (policy.starts jobs job)]
  [∀ log state thread job request choice,
    Decidable (policy.steps log state thread job request choice)]

/-- Take one scheduling decision, when it is possible and the policy allows it. -/
def act (c : Config I σ Job Out) : Action Job Choice → Option (Config I σ Job Out)
  | .start job => if policy.starts c.jobs job then some (c.start sys job) else none
  | .advance thread choice =>
      match c.threads[thread]? with
      | some ⟨job, .call request next⟩ =>
          if policy.steps c.log c.state thread job request choice then
            (sys.respond request choice (past c.log) c.state).map fun reply =>
              c.advance thread job request next reply.1 reply.2
          else none
      | _ => none

/-- Execute a schedule. -/
def run (c : Config I σ Job Out) : List (Action Job Choice) → Option (Config I σ Job Out)
  | [] => some c
  | action :: schedule =>
      match sys.act policy c action with
      | some d => run d schedule
      | none => none

variable {sys} {policy}

theorem reaches_of_act {action : Action Job Choice} (taken : sys.act policy c action = some d) :
    sys.Reaches policy c d := by
  cases action with
  | start job =>
      simp only [act] at taken
      split at taken
      · next allowed =>
          obtain rfl := Option.some.inj taken
          exact Reaches.refl.start job allowed
      · cases taken
  | advance thread choice =>
      simp only [act] at taken
      split at taken
      · next job request next pending =>
          split at taken
          · next allowed =>
              obtain ⟨⟨answer, state⟩, responds, rfl⟩ := Option.map_eq_some_iff.mp taken
              exact Reaches.refl.advance pending allowed responds
          · cases taken
      · cases taken

/-- An executed schedule is a run. -/
theorem reaches_of_run {schedule : List (Action Job Choice)}
    (executed : sys.run policy c schedule = some d) : sys.Reaches policy c d := by
  induction schedule generalizing c with
  | nil =>
      obtain rfl := Option.some.inj executed
      exact .refl
  | cons action schedule ih =>
      simp only [run] at executed
      split at executed
      · next e taken => exact (reaches_of_act taken).trans (ih executed)
      · cases executed

/-- A schedule that can be executed and ends well is a run that ends well. -/
theorem exists_reaches_of_run {schedule : List (Action Job Choice)} {good : Config I σ Job Out → Bool}
    (executed : (sys.run policy c schedule).any good) : ∃ d, sys.Reaches policy c d ∧ good d := by
  obtain ⟨d, ran, ends⟩ := (Option.any_eq_true _ _).mp executed
  exact ⟨d, reaches_of_run ran, ends⟩

end Run

end System

/-! ## Traces -/

/-- A log in which every entry was a legal call for its thread's history at that moment,
was allowed by the policy, and was answered by the store. -/
inductive Trace (sys : System I σ Job Out Choice) (policy : Policy I σ Job Choice)
    (legal : Job → List (Exchange I) → I.Call → Prop) (origin : σ) :
    List (Entry I σ Job) → σ → Prop where
  | nil : Trace sys policy legal origin [] origin
  | cons {log : List (Entry I σ Job)} {state : σ}
      (earlier : Trace sys policy legal origin log state) {thread : ℕ} {job : Job}
      {request : I.Call} {choice : Choice} {answer : I.Answer request} {state' : σ}
      (lawful : legal job (history log thread) request)
      (allowed : policy.steps log state thread job request choice)
      (responds : sys.respond request choice (past log) state = some (answer, state')) :
      Trace sys policy legal origin (⟨thread, job, ⟨request, answer⟩, state, state'⟩ :: log) state'

namespace Trace

variable {sys : System I σ Job Out Choice} {policy : Policy I σ Job Choice}
  {legal : Job → List (Exchange I) → I.Call → Prop} {origin state : σ}
  {log newer older : List (Entry I σ Job)}

/-- What is known of one entry: it was legal and allowed after the entries below it. -/
theorem split {entry : Entry I σ Job}
    (trace : Trace sys policy legal origin (newer ++ entry :: older) state) :
    Trace sys policy legal origin older entry.before ∧
      legal entry.job (history older entry.thread) entry.exchange.call ∧
      ∃ choice, policy.steps older entry.before entry.thread entry.job entry.exchange.call choice ∧
        sys.respond entry.exchange.call choice (past older) entry.before =
          some (entry.exchange.answer, entry.after) := by
  induction newer generalizing state with
  | nil =>
      cases trace with
      | cons earlier lawful allowed responds =>
          exact ⟨earlier, lawful, _, allowed, responds⟩
  | cons first newer ih =>
      cases trace with
      | cons earlier _ _ _ => exact ih earlier

/-- The log determines the state. -/
theorem state_unique {state' : σ} (trace : Trace sys policy legal origin log state)
    (trace' : Trace sys policy legal origin log state') : state = state' := by
  cases trace with
  | nil => cases trace'; rfl
  | cons _ _ _ _ => cases trace'; rfl

/-- An older part of the log is a trace of its own. -/
theorem suffix (trace : Trace sys policy legal origin (newer ++ older) state) :
    ∃ state', Trace sys policy legal origin older state' := by
  induction newer generalizing state with
  | nil => exact ⟨state, trace⟩
  | cons entry newer ih =>
      cases trace with
      | cons earlier _ _ _ => exact ih earlier

/-- A relation between states that is reflexive, transitive and holds across every entry of
a part of the log relates the states before and after that part. -/
theorem relates (related : σ → σ → Prop) (refl : ∀ s, related s s)
    (trans : ∀ a b c, related a b → related b c → related a c) {start : σ}
    (earlier : Trace sys policy legal origin older start)
    (trace : Trace sys policy legal origin (newer ++ older) state)
    (steps : ∀ entry ∈ newer, related entry.before entry.after) : related start state := by
  induction newer generalizing state with
  | nil =>
      obtain rfl := earlier.state_unique trace
      exact refl _
  | cons entry newer ih =>
      cases trace with
      | cons between _ _ _ =>
          have step := steps _ List.mem_cons_self
          exact trans _ _ _ (ih between fun later member => steps later (List.mem_cons_of_mem _ member))
            step

/-- **The trace rule**: what holds at the start, and after an entry whenever it held at every
earlier moment, holds. -/
theorem rule {motive : List (Entry I σ Job) → σ → Prop} (start : motive [] origin)
    (step : ∀ entry older, Trace sys policy legal origin (entry :: older) entry.after →
      (∀ newer oldest state, older = newer ++ oldest →
        Trace sys policy legal origin oldest state → motive oldest state) →
      motive (entry :: older) entry.after)
    (trace : Trace sys policy legal origin log state) : motive log state := by
  suffices every : ∀ newer older state, log = newer ++ older →
      Trace sys policy legal origin older state → motive older state from
    every [] log state rfl trace
  induction trace with
  | nil =>
      intro newer older state whole earlier
      obtain ⟨-, rfl⟩ := List.append_eq_nil_iff.mp whole.symm
      cases earlier
      exact start
  | cons earlier lawful allowed responds ih =>
      intro newer older state whole suffix
      cases newer with
      | nil =>
          obtain rfl : _ = older := whole
          obtain rfl := suffix.state_unique (.cons earlier lawful allowed responds)
          exact step _ _ (.cons earlier lawful allowed responds) ih
      | cons entry newer =>
          obtain ⟨-, rest⟩ := List.cons_eq_cons.mp whole
          exact ih newer older state rest suffix

/-- After an entry the state is the one it left. -/
theorem after_of_split {entry : Entry I σ Job}
    (trace : Trace sys policy legal origin (entry :: older) state) : entry.after = state := by
  cases trace
  rfl

/-- The states the store once held were before entries of the log. -/
theorem mem_past {old : σ} : old ∈ past log ↔ ∃ entry ∈ log, entry.before = old := by
  simp [past]

/-- A state the store once held is the state of an older part of the log. -/
theorem of_past (trace : Trace sys policy legal origin log state) {old : σ}
    (member : old ∈ past log) :
    ∃ newer older, log = newer ++ older ∧ Trace sys policy legal origin older old := by
  obtain ⟨entry, inLog, rfl⟩ := mem_past.mp member
  obtain ⟨newer, older, rfl⟩ := List.append_of_mem inLog
  exact ⟨newer ++ [entry], older, by simp, (split trace).1⟩

end Trace

namespace System

variable {sys : System I σ Job Out Choice} {policy : Policy I σ Job Choice}
  {legal : Job → List (Exchange I) → I.Call → Prop}
  {final : Job → List (Exchange I) → Out → Prop} {s : σ} {c d : Config I σ Job Out}

/-- Every thread obeys the protocol of its job from where it now is, and a thread that
does not exist yet has no history. -/
theorem Reaches.obeys (run : sys.Reaches policy (.initial s) c)
    (protocol : ∀ job, Obeys (legal job) (final job) [] (sys.program job)) :
    (∀ thread job program, c.threads[thread]? = some ⟨job, program⟩ →
      Obeys (legal job) (final job) (history c.log thread) program) ∧
    ∀ entry ∈ c.log, entry.thread < c.threads.length := by
  induction run with
  | refl => simp [Config.initial]
  | @start c _ job _ ih =>
      refine ⟨fun thread job' program found => ?_, fun entry member => ?_⟩
      · simp only [Config.start] at found ⊢
        rcases Nat.lt_or_ge thread c.threads.length with old | new
        · rw [List.getElem?_append_left old] at found
          exact ih.1 thread job' program found
        · rw [List.getElem?_append_right new] at found
          obtain ⟨bound, same⟩ := List.getElem?_eq_some_iff.mp found
          have last : thread - c.threads.length = 0 := by simpa using bound
          simp only [last, List.getElem_cons_zero, Thread.mk.injEq] at same
          obtain ⟨rfl, rfl⟩ := same
          have fresh : history c.log thread = [] := by
            rw [List.eq_nil_iff_forall_not_mem]
            intro exchange member
            obtain ⟨entry, inLog, mine, _⟩ := mem_history.mp member
            exact absurd (ih.2 entry inLog) (by omega)
          rw [fresh]
          exact protocol job
      · have bound := ih.2 entry member
        simp only [Config.start, List.length_append, List.length_cons, List.length_nil]
        omega
  | @advance c _ thread job request next choice answer state pending _ _ ih =>
      have running := ih.1 thread job _ pending
      have bound : thread < c.threads.length := (List.getElem?_eq_some_iff.mp pending).1
      refine ⟨fun other job' program found => ?_, fun entry member => ?_⟩
      · simp only [Config.advance] at found ⊢
        by_cases mine : thread = other
        · subst mine
          rw [List.getElem?_set_self bound, Option.some.injEq, Thread.mk.injEq] at found
          obtain ⟨rfl, rfl⟩ := found
          have extended := history_cons_self
            (⟨thread, job, ⟨request, answer⟩, c.state, state⟩ : Entry I σ Job) c.log
          simp only at extended
          rw [extended]
          exact (obeys_call.mp running).2 answer
        · rw [List.getElem?_set_ne mine] at found
          rw [history_cons_of_ne mine]
          exact ih.1 other job' program found
      · simp only [Config.advance, List.length_set] at member ⊢
        rcases List.mem_cons.mp member with rfl | inLog
        · exact bound
        · exact ih.2 entry inLog

/-- **A run of jobs that obey their protocols leaves a trace of legal calls.** -/
theorem Reaches.trace (run : sys.Reaches policy (.initial s) c)
    (protocol : ∀ job, Obeys (legal job) (final job) [] (sys.program job)) :
    Trace sys policy legal s c.log c.state := by
  induction run with
  | refl => exact .nil
  | start _ _ _ ih => exact ih
  | @advance c reached thread job request next choice answer state pending allowed responds ih =>
      have running := (reached.obeys protocol).1 thread job _ pending
      exact .cons ih (obeys_call.mp running).1 allowed responds

/-- The thread of a logged call is still there, with the job it made the call for. -/
theorem Reaches.job_of_entry (run : sys.Reaches policy (.initial s) c) {entry : Entry I σ Job}
    (member : entry ∈ c.log) : c.jobs[entry.thread]? = some entry.job := by
  induction run with
  | refl => cases member
  | @start c reached job allowed ih =>
      obtain ⟨later, eq⟩ := ((Reaches.refl : sys.Reaches policy c c).start job allowed).jobs_extend
      rw [eq, List.getElem?_append_left]
      · exact ih member
      · exact (List.getElem?_eq_some_iff.mp (ih member)).1
  | @advance c reached thread job request next choice answer state pending allowed responds ih =>
      obtain ⟨later, eq⟩ := (Reaches.refl.advance pending allowed responds).jobs_extend
      rcases List.mem_cons.mp member with rfl | inLog
      · have here : c.jobs[thread]? = some job := by
          rw [Config.jobs, List.getElem?_map, pending]; rfl
        rw [eq, List.getElem?_append_left]
        · exact here
        · exact (List.getElem?_eq_some_iff.mp here).1
      · rw [eq, List.getElem?_append_left]
        · exact ih inLog
        · exact (List.getElem?_eq_some_iff.mp (ih inLog)).1

/-- Calls of one thread are of one job. -/
theorem Reaches.job_eq (run : sys.Reaches policy (.initial s) c) {early late : Entry I σ Job}
    (before : early ∈ c.log) (after : late ∈ c.log) (thread : early.thread = late.thread) :
    early.job = late.job :=
  Option.some.inj ((run.job_of_entry before).symm.trans
    ((congrArg (c.jobs[·]?) thread).trans (run.job_of_entry after)))

end System

end WaitingRoom.Concurrency
