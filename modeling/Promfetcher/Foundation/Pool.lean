import Promfetcher.Foundation.Transition
import Mathlib.Algebra.BigOperators.Fin
import Mathlib.Algebra.Order.BigOperators.Group.Finset
import Mathlib.Algebra.Order.Group.Multiset
import Mathlib.Tactic.Abel

/-!
# Worker pools

A pool is a sender, a channel of bounded capacity, a wait group and a number of
workers. The sender sends a list of jobs in order, waits until the wait group is
back at zero and closes the channel. A worker receives jobs until the channel is
closed and empty. With each job it updates a variable of its own, does its work
with it, and then updates a shared variable in the critical section of a mutex,
by a load and a store that are two steps.

The main results say that the wait group never becomes negative, that the sender
is never stuck, that once it has waited every job has had its effect exactly
once, in some order, and that the variable with which a job is worked on depends
only on jobs sent before it.
-/

namespace Foundation

universe u v w

/-- A pool: its sizes, the jobs to send, and what the workers do with a job. -/
structure Pool (Job : Type u) (Scope : Type v) (Shared : Type w) where
  workers : Nat
  capacity : Nat
  jobs : List Job
  scope : Scope
  shared : Shared
  /-- The assignment to its own variable with which a worker begins a job. -/
  enter : Scope → Job → Scope
  /-- The update of the shared variable with which it ends a job. -/
  effect : Shared → Job → Shared

namespace Pool

variable {Job : Type u} {Scope : Type v} {Shared : Type w}

/-- Where a worker stands. -/
inductive Phase (Job : Type u) (Shared : Type w) where
  | idle
  | received (job : Job)
  | worked (job : Job)
  | locked (job : Job)
  /-- In the critical section, with the value that was loaded. -/
  | loaded (job : Job) (seen : Shared)
  | stored (job : Job)
  | unlocked (job : Job)
  /-- After the channel was found closed. -/
  | exited

/-- A worker: what its last job has left behind, and where it stands. -/
structure Worker (Job : Type u) (Scope : Type v) (Shared : Type w) where
  scope : Scope
  phase : Phase Job Shared

/-- A state of the sender, the channel, the wait group, the mutex and the workers. The log lists
the jobs worked on, with the variable of the worker. -/
structure State (workers : Nat) (Job : Type u) (Scope : Type v) (Shared : Type w) where
  remaining : List Job
  buffer : List Job
  counter : Int
  mutex : Option (Fin workers)
  shared : Shared
  workers : Fin workers → Worker Job Scope Shared
  waited : Bool
  log : List (Job × Scope)

/-- What may happen next: at the sender, or at one of the workers. -/
inductive Event (workers : Nat) where
  | send
  | wait
  | receive (worker : Fin workers)
  | work (worker : Fin workers)
  | lock (worker : Fin workers)
  | load (worker : Fin workers)
  | store (worker : Fin workers)
  | unlock (worker : Fin workers)
  | done (worker : Fin workers)
  | exit (worker : Fin workers)
  deriving DecidableEq

namespace State

variable {workers : Nat}

/-- The state with one worker elsewhere. -/
def move (state : State workers Job Scope Shared) (worker : Fin workers)
    (next : Worker Job Scope Shared) : State workers Job Scope Shared :=
  { state with workers := Function.update state.workers worker next }

/-- The state with one worker in another phase. -/
def goto (state : State workers Job Scope Shared) (worker : Fin workers)
    (phase : Phase Job Shared) : State workers Job Scope Shared :=
  state.move worker { scope := (state.workers worker).scope, phase := phase }

end State

variable (pool : Pool Job Scope Shared)

/-- The state after `wg.Add` and before the first worker starts. -/
def start : State pool.workers Job Scope Shared where
  remaining := pool.jobs
  buffer := []
  counter := pool.jobs.length
  mutex := none
  shared := pool.shared
  workers := fun _ => { scope := pool.scope, phase := .idle }
  waited := false
  log := []

/-- One step of the sender or of a worker. -/
inductive Step : State pool.workers Job Scope Shared → Event pool.workers →
    State pool.workers Job Scope Shared → Prop where
  | send {state : State pool.workers Job Scope Shared} {job : Job} {rest : List Job}
      (more : state.remaining = job :: rest) (room : state.buffer.length < pool.capacity) :
      Step state .send { state with remaining := rest, buffer := state.buffer ++ [job] }
  | wait {state : State pool.workers Job Scope Shared} (sent : state.remaining = [])
      (zero : state.counter = 0) (waiting : state.waited = false) :
      Step state .wait { state with waited := true }
  | receive {state : State pool.workers Job Scope Shared} {worker : Fin pool.workers} {job : Job}
      {rest : List Job} (phase : (state.workers worker).phase = .idle)
      (available : state.buffer = job :: rest) :
      Step state (.receive worker) { state.goto worker (.received job) with buffer := rest }
  | work {state : State pool.workers Job Scope Shared} {worker : Fin pool.workers} {job : Job}
      {scope : Scope} (phase : (state.workers worker).phase = .received job)
      (entered : pool.enter (state.workers worker).scope job = scope) :
      Step state (.work worker)
        { state.move worker { scope := scope, phase := .worked job } with
          log := state.log ++ [(job, scope)] }
  | lock {state : State pool.workers Job Scope Shared} {worker : Fin pool.workers} {job : Job}
      (phase : (state.workers worker).phase = .worked job) (free : state.mutex = none) :
      Step state (.lock worker) { state.goto worker (.locked job) with mutex := some worker }
  | load {state : State pool.workers Job Scope Shared} {worker : Fin pool.workers} {job : Job}
      (phase : (state.workers worker).phase = .locked job) :
      Step state (.load worker) (state.goto worker (.loaded job state.shared))
  | store {state : State pool.workers Job Scope Shared} {worker : Fin pool.workers} {job : Job}
      {seen : Shared} (phase : (state.workers worker).phase = .loaded job seen) :
      Step state (.store worker)
        { state.goto worker (.stored job) with shared := pool.effect seen job }
  | unlock {state : State pool.workers Job Scope Shared} {worker : Fin pool.workers} {job : Job}
      (phase : (state.workers worker).phase = .stored job) :
      Step state (.unlock worker) { state.goto worker (.unlocked job) with mutex := none }
  | done {state : State pool.workers Job Scope Shared} {worker : Fin pool.workers} {job : Job}
      (phase : (state.workers worker).phase = .unlocked job) :
      Step state (.done worker)
        { state.goto worker .idle with counter := state.counter - 1 }
  | exit {state : State pool.workers Job Scope Shared} {worker : Fin pool.workers}
      (phase : (state.workers worker).phase = .idle) (closed : state.waited = true)
      (empty : state.buffer = []) :
      Step state (.exit worker) (state.goto worker .exited)

/-- All interleavings of the sender and the workers. -/
def system : System (State pool.workers Job Scope Shared) (Event pool.workers) where
  initial state := state = pool.start
  step := pool.Step

variable {pool}

/-! ## Sums over the workers -/

section Total

variable {workers : Nat} {Quantity : Type*} [AddCommMonoid Quantity]

/-- The sum over all workers of a quantity of their phases. -/
def total (quantity : Phase Job Shared → Quantity)
    (states : Fin workers → Worker Job Scope Shared) : Quantity :=
  ∑ worker, quantity (states worker).phase

theorem total_update (quantity : Phase Job Shared → Quantity)
    (states : Fin workers → Worker Job Scope Shared) (worker : Fin workers)
    (next : Worker Job Scope Shared) :
    total quantity (Function.update states worker next) + quantity (states worker).phase =
      total quantity states + quantity next.phase := by
  have others : ∀ other ∈ Finset.univ.erase worker,
      quantity (Function.update states worker next other).phase =
        quantity (states other).phase := by
    intro other otherMem
    rw [Function.update_of_ne (Finset.ne_of_mem_erase otherMem)]
  have before := Finset.add_sum_erase Finset.univ
    (fun other => quantity (states other).phase) (Finset.mem_univ worker)
  have after := Finset.add_sum_erase Finset.univ
    (fun other => quantity (Function.update states worker next other).phase)
    (Finset.mem_univ worker)
  rw [Finset.sum_congr rfl others] at after
  simp only [Function.update_self] at after
  rw [total, total, ← before, ← after]
  abel

theorem total_update_of_eq {quantity : Phase Job Shared → Quantity}
    {states : Fin workers → Worker Job Scope Shared} {worker : Fin workers}
    {next : Worker Job Scope Shared}
    (same : quantity next.phase = quantity (states worker).phase) :
    total quantity (Function.update states worker next) = total quantity states := by
  apply Finset.sum_congr rfl
  intro other _
  by_cases moved : other = worker
  · subst other
    rw [Function.update_self, same]
  · rw [Function.update_of_ne moved]

theorem total_eq_zero {quantity : Phase Job Shared → Quantity}
    {states : Fin workers → Worker Job Scope Shared}
    (zero : ∀ worker, quantity (states worker).phase = 0) : total quantity states = 0 :=
  Finset.sum_eq_zero fun worker _ => zero worker

theorem le_total (quantity : Phase Job Shared → Nat)
    (states : Fin workers → Worker Job Scope Shared) (worker : Fin workers) :
    quantity (states worker).phase ≤ total quantity states :=
  Finset.single_le_sum (fun other _ => Nat.zero_le (quantity (states other).phase))
    (Finset.mem_univ worker)

end Total

/-! ## The mutex -/

/-- The worker holds the lock. -/
def Phase.InCriticalSection : Phase Job Shared → Prop
  | .locked _ | .loaded _ _ | .stored _ => True
  | _ => False

/-- The mutex is held exactly by the worker in its critical section, and what it has loaded is
still the shared value. -/
structure Excludes {workers : Nat} (state : State workers Job Scope Shared) : Prop where
  holder : ∀ worker, (state.workers worker).phase.InCriticalSection ↔ state.mutex = some worker
  current : ∀ worker job seen, (state.workers worker).phase = .loaded job seen →
    seen = state.shared

theorem excludes_start : Excludes pool.start where
  holder := by simp [start, Phase.InCriticalSection]
  current := by simp [start]

theorem Excludes.move {state : State pool.workers Job Scope Shared} (excludes : Excludes state)
    {worker : Fin pool.workers} {next : Worker Job Scope Shared}
    (same : next.phase.InCriticalSection ↔ (state.workers worker).phase.InCriticalSection)
    (current : ∀ job seen, next.phase = .loaded job seen → seen = state.shared) :
    Excludes (state.move worker next) where
  holder := by
    intro other
    by_cases moved : other = worker
    · subst other
      simpa [State.move, same] using excludes.holder worker
    · simpa [State.move, Function.update_of_ne moved] using excludes.holder other
  current := by
    intro other job seen phase
    by_cases moved : other = worker
    · subst other
      exact current job seen (by simpa [State.move] using phase)
    · exact excludes.current other job seen
        (by simpa [State.move, Function.update_of_ne moved] using phase)

theorem Excludes.unique {workers : Nat} {state : State workers Job Scope Shared}
    (excludes : Excludes state) {worker other : Fin workers}
    (inside : (state.workers worker).phase.InCriticalSection)
    (otherInside : (state.workers other).phase.InCriticalSection) : other = worker := by
  have held := (excludes.holder worker).mp inside
  have otherHeld := (excludes.holder other).mp otherInside
  rw [held, Option.some.injEq] at otherHeld
  exact otherHeld.symm

/-- A worker that enters or leaves the critical section has not loaded anything. -/
theorem Excludes.current_goto {state : State pool.workers Job Scope Shared}
    (excludes : Excludes state) {worker other : Fin pool.workers} {next : Phase Job Shared}
    (unloaded : ∀ job seen, next ≠ .loaded job seen) {job : Job} {seen : Shared}
    (loaded : ((state.goto worker next).workers other).phase = .loaded job seen) :
    seen = state.shared := by
  by_cases moved : other = worker
  · subst other
    exact absurd (by simpa [State.goto, State.move] using loaded) (unloaded job seen)
  · apply excludes.current other job seen
    simpa [State.goto, State.move, Function.update_of_ne moved] using loaded

theorem Excludes.step {before after : State pool.workers Job Scope Shared}
    {event : Event pool.workers} (excludes : Excludes before)
    (moves : pool.Step before event after) : Excludes after := by
  have quiet {worker : Fin pool.workers} {phase : Phase Job Shared} (next : Phase Job Shared)
      (scope : Scope) (here : (before.workers worker).phase = phase)
      (outside : ¬phase.InCriticalSection) (nextOutside : ¬next.InCriticalSection) :
      Excludes (before.move worker { scope := scope, phase := next }) := by
    apply excludes.move
    · simp [here, outside, nextOutside]
    · rintro job seen rfl
      exact absurd trivial nextOutside
  cases moves with
  | send => exact ⟨excludes.holder, excludes.current⟩
  | wait => exact ⟨excludes.holder, excludes.current⟩
  | @receive worker job _ phase _ =>
      have moved := quiet (.received job) (before.workers worker).scope phase id id
      exact ⟨moved.holder, moved.current⟩
  | @work _ job scope phase _ =>
      have moved := quiet (.worked job) scope phase id id
      exact ⟨moved.holder, moved.current⟩
  | @lock worker job phase free =>
      have outside : ∀ other, ¬(before.workers other).phase.InCriticalSection := by
        intro other inside
        rw [excludes.holder, free] at inside
        cases inside
      refine ⟨fun other => ?_, fun other locked seen loaded => ?_⟩
      · by_cases moved : other = worker
        · subst other
          simp [State.goto, State.move, Phase.InCriticalSection]
        · simp [State.goto, State.move, Function.update_of_ne moved, outside other, Ne.symm moved]
      · exact excludes.current_goto (by rintro _ _ ⟨⟩) loaded
  | load phase =>
      apply excludes.move
      · simp [phase, Phase.InCriticalSection]
      · intro job seen loaded
        cases loaded
        rfl
  | @store worker job seen phase =>
      have inside : (before.workers worker).phase.InCriticalSection := by
        rw [phase]
        trivial
      have moved : Excludes (before.goto worker (.stored job)) := by
        apply excludes.move
        · exact iff_of_true trivial inside
        · rintro _ _ ⟨⟩
      refine ⟨moved.holder, fun other loadedJob value loaded => ?_⟩
      -- Nobody else is in the critical section, and this worker has left `loaded`.
      have otherInside : ((before.goto worker (.stored job)).workers
          other).phase.InCriticalSection := by
        rw [loaded]
        trivial
      have same : other = worker := by
        apply moved.unique _ otherInside
        simp [State.goto, State.move, Phase.InCriticalSection]
      subst other
      simp [State.goto, State.move] at loaded
  | @unlock worker job phase =>
      have inside : (before.workers worker).phase.InCriticalSection := by
        rw [phase]
        trivial
      refine ⟨fun other => ?_, fun other locked seen loaded => ?_⟩
      · by_cases moved : other = worker
        · subst other
          simp [State.goto, State.move, Phase.InCriticalSection]
        · have outside : ¬(before.workers other).phase.InCriticalSection :=
            fun otherInside => moved (excludes.unique inside otherInside)
          simp [State.goto, State.move, Function.update_of_ne moved, outside]
      · exact excludes.current_goto (by rintro _ _ ⟨⟩) loaded
  | @done worker _ phase =>
      have moved := quiet .idle (before.workers worker).scope phase id id
      exact ⟨moved.holder, moved.current⟩
  | exit phase => exact quiet .exited _ phase id id

/-! ## The wait group -/

/-- A worker that has received a job and not yet called `Done` counts for one. -/
def Phase.busy : Phase Job Shared → Nat
  | .idle | .exited => 0
  | _ => 1

/-- The wait group counts the jobs that are not done, and no job is left once the sender has
waited. -/
structure Counts {workers : Nat} (state : State workers Job Scope Shared) : Prop where
  counter : state.counter =
    state.remaining.length + state.buffer.length + (total Phase.busy state.workers : Nat)
  waited : state.waited = true → state.remaining = [] ∧ state.counter = 0
  exited : ∀ worker, (state.workers worker).phase = .exited → state.waited = true

theorem counts_start : Counts pool.start where
  counter := by simp [start, total, Phase.busy]
  waited := by simp [start]
  exited := by simp [start]

theorem Counts.nonneg {workers : Nat} {state : State workers Job Scope Shared}
    (counts : Counts state) : 0 ≤ state.counter := by
  have counter := counts.counter
  omega

theorem Counts.positive {workers : Nat} {state : State workers Job Scope Shared}
    (counts : Counts state) {worker : Fin workers}
    (busy : (state.workers worker).phase.busy = 1) : 0 < state.counter := by
  have atLeast := le_total Phase.busy state.workers worker
  have counter := counts.counter
  omega

theorem Counts.step {before after : State pool.workers Job Scope Shared}
    {event : Event pool.workers} (counts : Counts before)
    (moves : pool.Step before event after) : Counts after := by
  have counter := counts.counter
  -- A worker that has not exited may go on to any phase but `exited`.
  have exited {worker : Fin pool.workers} {next : Worker Job Scope Shared}
      (stays : next.phase ≠ .exited) : ∀ other,
      (Function.update before.workers worker next other).phase = .exited →
        before.waited = true := by
    intro other gone
    by_cases moved : other = worker
    · subst other
      rw [Function.update_self] at gone
      exact absurd gone stays
    · rw [Function.update_of_ne moved] at gone
      exact counts.exited other gone
  have quiet {worker : Fin pool.workers} {phase : Phase Job Shared} (next : Phase Job Shared)
      (scope : Scope) (here : (before.workers worker).phase = phase)
      (same : next.busy = phase.busy) (stays : next ≠ .exited) :
      Counts (before.move worker { scope := scope, phase := next }) := by
    have moved := total_update Phase.busy before.workers worker { scope := scope, phase := next }
    simp only [here, same] at moved
    refine ⟨?_, counts.waited, exited stays⟩
    simp only [State.move]
    omega
  cases moves with
  | send more _ =>
      refine ⟨?_, fun waited => ?_, counts.exited⟩
      · simp only [more, List.length_cons, List.length_append, List.length_nil] at counter ⊢
        omega
      · have sent := (counts.waited waited).1
        rw [more] at sent
        cases sent
  | wait sent zero _ => exact ⟨counter, fun _ => ⟨sent, zero⟩, fun _ _ => rfl⟩
  | @receive worker job rest phase available =>
      have moved := total_update Phase.busy before.workers worker
        { scope := (before.workers worker).scope, phase := .received job }
      refine ⟨?_, counts.waited, exited (by simp)⟩
      simp only [phase, Phase.busy] at moved
      simp only [available, List.length_cons, State.goto, State.move] at counter ⊢
      omega
  | @work _ job scope phase _ =>
      have moved := quiet (.worked job) scope phase rfl (by simp)
      exact ⟨moved.counter, moved.waited, moved.exited⟩
  | @lock worker job phase _ =>
      have moved := quiet (.locked job) (before.workers worker).scope phase rfl (by simp)
      exact ⟨moved.counter, moved.waited, moved.exited⟩
  | @load worker job phase => exact quiet (.loaded job before.shared) _ phase rfl (by simp)
  | @store worker job seen phase =>
      have moved := quiet (.stored job) (before.workers worker).scope phase rfl (by simp)
      exact ⟨moved.counter, moved.waited, moved.exited⟩
  | @unlock worker job phase =>
      have moved := quiet (.unlocked job) (before.workers worker).scope phase rfl (by simp)
      exact ⟨moved.counter, moved.waited, moved.exited⟩
  | @done worker _ phase =>
      have moved := total_update Phase.busy before.workers worker
        { scope := (before.workers worker).scope, phase := .idle }
      have positive : 0 < before.counter := counts.positive (by rw [phase]; rfl)
      refine ⟨?_, fun waited => ?_, exited (by simp)⟩
      · simp only [phase, Phase.busy] at moved
        simp only [State.goto, State.move]
        omega
      · have zero := (counts.waited waited).2
        omega
  | @exit worker phase closed _ =>
      have moved := total_update Phase.busy before.workers worker
        { scope := (before.workers worker).scope, phase := .exited }
      refine ⟨?_, counts.waited, fun _ _ => closed⟩
      simp only [phase, Phase.busy] at moved
      simp only [State.goto, State.move]
      omega

/-! ## The order of the effects -/

/-- The job of a worker whose effect is still to come. -/
def Phase.unstored : Phase Job Shared → Multiset Job
  | .received job | .worked job | .locked job | .loaded job _ => {job}
  | _ => 0

/-- The shared value is that of some order of the jobs whose effect has come, and the others are
waiting to be sent or received, or held by a worker. -/
def Effects (pool : Pool Job Scope Shared) (state : State pool.workers Job Scope Shared) : Prop :=
  ∃ order : List Job, state.shared = order.foldl pool.effect pool.shared ∧
    (state.remaining : Multiset Job) + state.buffer + total Phase.unstored state.workers + order =
      pool.jobs

theorem effects_start : Effects pool pool.start :=
  ⟨[], rfl, by simp [start, total, Phase.unstored]⟩

theorem Effects.step {before after : State pool.workers Job Scope Shared}
    {event : Event pool.workers} (effects : Effects pool before) (excludes : Excludes before)
    (moves : pool.Step before event after) : Effects pool after := by
  rcases effects with ⟨order, shared, jobs⟩
  have quiet {worker : Fin pool.workers} {next : Worker Job Scope Shared}
      (same : next.phase.unstored = (before.workers worker).phase.unstored) :
      (before.remaining : Multiset Job) + before.buffer +
        total Phase.unstored (before.move worker next).workers + order = pool.jobs := by
    rw [← jobs, State.move, total_update_of_eq same]
  cases moves with
  | send more _ =>
      refine ⟨order, shared, ?_⟩
      rw [← jobs, more]
      simp only [← Multiset.cons_coe, ← Multiset.coe_add, ← Multiset.singleton_add,
        Multiset.coe_nil]
      abel
  | wait => exact ⟨order, shared, jobs⟩
  | @receive worker job rest phase available =>
      have moved := total_update Phase.unstored before.workers worker
        { scope := (before.workers worker).scope, phase := .received job }
      simp only [phase, Phase.unstored, add_zero] at moved
      refine ⟨order, shared, ?_⟩
      simp only [State.goto, State.move, moved]
      rw [← jobs, available, ← Multiset.cons_coe, ← Multiset.singleton_add]
      abel
  | work phase _ => exact ⟨order, shared, quiet (by rw [phase]; rfl)⟩
  | lock phase _ => exact ⟨order, shared, quiet (by rw [phase]; rfl)⟩
  | load phase => exact ⟨order, shared, quiet (by rw [phase]; rfl)⟩
  | @store worker job seen phase =>
      have current := excludes.current worker job seen phase
      have moved := total_update Phase.unstored before.workers worker
        { scope := (before.workers worker).scope, phase := .stored job }
      simp only [phase, Phase.unstored, add_zero] at moved
      refine ⟨order ++ [job], ?_, ?_⟩
      · simp only [List.foldl_append, List.foldl_cons, List.foldl_nil, current, shared]
      · simp only [State.goto, State.move]
        rw [← jobs, ← moved, ← Multiset.coe_add, Multiset.coe_singleton]
        abel
  | unlock phase => exact ⟨order, shared, quiet (by rw [phase]; rfl)⟩
  | done phase => exact ⟨order, shared, quiet (by rw [phase]; rfl)⟩
  | exit phase => exact ⟨order, shared, quiet (by rw [phase]; rfl)⟩

/-! ## The log -/

/-- The job of a worker that is still to be worked on. -/
def Phase.unworked : Phase Job Shared → Multiset Job
  | .received job => {job}
  | _ => 0

/-- The jobs that are not in the log are waiting to be sent or received, or just received. -/
def Logs (pool : Pool Job Scope Shared) (state : State pool.workers Job Scope Shared) : Prop :=
  (state.remaining : Multiset Job) + state.buffer + total Phase.unworked state.workers +
    (state.log.map Prod.fst : List Job) = pool.jobs

theorem logs_start : Logs pool pool.start := by
  simp [Logs, start, total, Phase.unworked]

theorem Logs.step {before after : State pool.workers Job Scope Shared}
    {event : Event pool.workers} (logs : Logs pool before)
    (moves : pool.Step before event after) : Logs pool after := by
  unfold Logs at logs
  have quiet {worker : Fin pool.workers} {next : Worker Job Scope Shared}
      (same : next.phase.unworked = (before.workers worker).phase.unworked) :
      (before.remaining : Multiset Job) + before.buffer +
        total Phase.unworked (before.move worker next).workers +
          (before.log.map Prod.fst : List Job) = pool.jobs := by
    rw [← logs, State.move, total_update_of_eq same]
  cases moves with
  | send more _ =>
      unfold Logs
      rw [← logs, more]
      simp only [← Multiset.cons_coe, ← Multiset.coe_add, ← Multiset.singleton_add,
        Multiset.coe_nil]
      abel
  | wait => exact logs
  | @receive worker job rest phase available =>
      have moved := total_update Phase.unworked before.workers worker
        { scope := (before.workers worker).scope, phase := .received job }
      simp only [phase, Phase.unworked, add_zero] at moved
      simp only [Logs, State.goto, State.move, moved]
      rw [← logs, available, ← Multiset.cons_coe, ← Multiset.singleton_add]
      abel
  | @work worker job scope phase _ =>
      have moved := total_update Phase.unworked before.workers worker
        { scope := scope, phase := .worked job }
      simp only [phase, Phase.unworked, add_zero] at moved
      simp only [Logs, State.move, List.map_append, List.map_cons, List.map_nil]
      rw [← logs, ← moved, ← Multiset.coe_add, Multiset.coe_singleton]
      abel
  | lock phase _ => exact quiet (by rw [phase]; rfl)
  | load phase => exact quiet (by rw [phase]; rfl)
  | store phase => exact quiet (by rw [phase]; rfl)
  | unlock phase => exact quiet (by rw [phase]; rfl)
  | done phase => exact quiet (by rw [phase]; rfl)
  | exit phase => exact quiet (by rw [phase]; rfl)

/-! ## The variables of the workers -/

/-- What a worker has seen of the jobs taken from the channel: its variable is the result of some
of them, in order. With a job it has just received, these came before that job. -/
def Worker.Scoped (pool : Pool Job Scope Shared) (taken : List Job)
    (worker : Worker Job Scope Shared) : Prop :=
  match worker.phase with
  | .received job => ∃ earlier later, ∃ seen : List Job, taken = earlier ++ job :: later ∧
      seen.Sublist earlier ∧ worker.scope = seen.foldl pool.enter pool.scope
  | _ => ∃ seen : List Job, seen.Sublist taken ∧ worker.scope = seen.foldl pool.enter pool.scope

/-- The log entry is that of a worker which has seen, before its job, only jobs sent earlier. -/
def Scoped (pool : Pool Job Scope Shared) (entry : Job × Scope) : Prop :=
  ∃ earlier later, ∃ seen : List Job, pool.jobs = earlier ++ entry.1 :: later ∧
    seen.Sublist earlier ∧
    entry.2 = pool.enter (seen.foldl pool.enter pool.scope) entry.1

/-- The channel is first in, first out, and every worker and log entry is in scope. -/
structure Ordered (pool : Pool Job Scope Shared) (state : State pool.workers Job Scope Shared)
    (taken : List Job) : Prop where
  fifo : pool.jobs = taken ++ (state.buffer ++ state.remaining)
  workers : ∀ worker, (state.workers worker).Scoped pool taken
  log : ∀ entry ∈ state.log, Scoped pool entry

theorem ordered_start : Ordered pool pool.start [] where
  fifo := by simp [start]
  workers := fun _ => ⟨[], List.Sublist.refl _, rfl⟩
  log := by simp [start]

theorem Worker.scoped_iff {worker : Worker Job Scope Shared} {taken : List Job}
    (later : ∀ job, worker.phase ≠ .received job) : worker.Scoped pool taken ↔
      ∃ seen : List Job, seen.Sublist taken ∧ worker.scope = seen.foldl pool.enter pool.scope := by
  unfold Worker.Scoped
  split
  · next job phase => exact absurd phase (later job)
  · rfl

theorem Worker.Scoped.take {worker : Worker Job Scope Shared} {taken : List Job}
    (inScope : worker.Scoped pool taken) (job : Job) : worker.Scoped pool (taken ++ [job]) := by
  unfold Worker.Scoped at inScope ⊢
  split at inScope
  · next received phase =>
      rcases inScope with ⟨earlier, later, seen, takenEq, sublist, scope⟩
      exact ⟨earlier, later ++ [job], seen, by simp [takenEq], sublist, scope⟩
  · rcases inScope with ⟨seen, sublist, scope⟩
    exact ⟨seen, sublist.trans (List.sublist_append_left _ _), scope⟩

theorem Ordered.step {before after : State pool.workers Job Scope Shared}
    {event : Event pool.workers} {taken : List Job} (ordered : Ordered pool before taken)
    (moves : pool.Step before event after) : ∃ next, Ordered pool after next := by
  have quiet {worker : Fin pool.workers} {phase : Phase Job Shared}
      (earlier : ∀ job, (before.workers worker).phase ≠ .received job)
      (later : ∀ job, phase ≠ .received job) :
      ∀ other, ((before.goto worker phase).workers other).Scoped pool taken := by
    intro other
    by_cases moved : other = worker
    · subst other
      have inScope := (Worker.scoped_iff earlier).mp (ordered.workers worker)
      simp only [State.goto, State.move, Function.update_self]
      exact (Worker.scoped_iff later).mpr inScope
    · simp only [State.goto, State.move, Function.update_of_ne moved]
      exact ordered.workers other
  cases moves with
  | send more _ =>
      refine ⟨taken, ?_, ordered.workers, ordered.log⟩
      rw [ordered.fifo, more]
      simp
  | wait => exact ⟨taken, ordered.fifo, ordered.workers, ordered.log⟩
  | @receive worker job rest phase available =>
      refine ⟨taken ++ [job], ?_, fun other => ?_, ordered.log⟩
      · rw [ordered.fifo, available]
        simp [State.goto, State.move]
      · by_cases moved : other = worker
        · subst other
          rcases (Worker.scoped_iff (by simp [phase])).mp (ordered.workers worker) with
            ⟨seen, sublist, scope⟩
          simp only [State.goto, State.move, Function.update_self]
          exact ⟨taken, [], seen, rfl, sublist, scope⟩
        · simp only [State.goto, State.move, Function.update_of_ne moved]
          exact (ordered.workers other).take job
  | @work worker job scope phase entered =>
      have inScope := ordered.workers worker
      simp only [Worker.Scoped, phase] at inScope
      rcases inScope with ⟨earlier, later, seen, takenEq, sublist, seenScope⟩
      refine ⟨taken, ordered.fifo, fun other => ?_, fun entry logged => ?_⟩
      · by_cases moved : other = worker
        · subst other
          simp only [State.move, Function.update_self]
          refine ⟨seen ++ [job], ?_, ?_⟩
          · rw [takenEq]
            exact sublist.append (List.singleton_sublist.mpr (by simp))
          · rw [← entered, seenScope, List.foldl_append]
            rfl
        · simp only [State.move, Function.update_of_ne moved]
          exact ordered.workers other
      · rcases List.mem_append.mp logged with old | new
        · exact ordered.log entry old
        · rw [List.mem_singleton.mp new]
          refine ⟨earlier, later ++ (before.buffer ++ before.remaining), seen, ?_, sublist, ?_⟩
          · rw [ordered.fifo, takenEq]
            simp
          · rw [← entered, seenScope]
  | lock phase _ =>
      exact ⟨taken, ordered.fifo, quiet (by simp [phase]) (by simp), ordered.log⟩
  | load phase =>
      exact ⟨taken, ordered.fifo, quiet (by simp [phase]) (by simp), ordered.log⟩
  | store phase =>
      exact ⟨taken, ordered.fifo, quiet (by simp [phase]) (by simp), ordered.log⟩
  | unlock phase =>
      exact ⟨taken, ordered.fifo, quiet (by simp [phase]) (by simp), ordered.log⟩
  | done phase =>
      exact ⟨taken, ordered.fifo, quiet (by simp [phase]) (by simp), ordered.log⟩
  | exit phase =>
      exact ⟨taken, ordered.fifo, quiet (by simp [phase]) (by simp), ordered.log⟩

/-! ## Progress -/

/-- The steps that the worker still takes if it gets no other job. -/
def Phase.ahead : Phase Job Shared → Nat
  | .received _ => 7
  | .worked _ => 6
  | .locked _ => 5
  | .loaded _ _ => 4
  | .stored _ => 3
  | .unlocked _ => 2
  | .idle => 1
  | .exited => 0

/-- The steps that can still be taken. -/
def State.ahead {workers : Nat} (state : State workers Job Scope Shared) : Nat :=
  8 * state.remaining.length + 7 * state.buffer.length + total Phase.ahead state.workers +
    (!state.waited).toNat

theorem State.ahead_move_lt {workers : Nat} (state : State workers Job Scope Shared)
    {worker : Fin workers} (next : Worker Job Scope Shared)
    (nearer : next.phase.ahead < (state.workers worker).phase.ahead) :
    (state.move worker next).ahead < state.ahead := by
  have moved := total_update Phase.ahead state.workers worker next
  simp only [ahead, move]
  omega

/-- Every step brings the end nearer, so that every run ends. -/
theorem Step.ahead_lt {before after : State pool.workers Job Scope Shared}
    {event : Event pool.workers} (moves : pool.Step before event after) :
    after.ahead < before.ahead := by
  cases moves with
  | send more _ =>
      simp only [State.ahead, more, List.length_cons, List.length_append, List.length_nil]
      omega
  | wait _ _ waiting =>
      simp only [State.ahead, waiting]
      simp
  | @receive worker job _ phase available =>
      have moved := total_update Phase.ahead before.workers worker
        { scope := (before.workers worker).scope, phase := .received job }
      simp only [phase, Phase.ahead] at moved
      simp only [State.ahead, available, List.length_cons, State.goto, State.move]
      omega
  | @work _ job scope phase _ =>
      exact before.ahead_move_lt ⟨scope, .worked job⟩ (by simp [phase, Phase.ahead])
  | @lock _ job phase _ =>
      exact before.ahead_move_lt ⟨_, .locked job⟩ (by simp [phase, Phase.ahead])
  | @load _ job phase =>
      exact before.ahead_move_lt ⟨_, .loaded job before.shared⟩ (by simp [phase, Phase.ahead])
  | @store _ job _ phase =>
      exact before.ahead_move_lt ⟨_, .stored job⟩ (by simp [phase, Phase.ahead])
  | @unlock _ job phase =>
      exact before.ahead_move_lt ⟨_, .unlocked job⟩ (by simp [phase, Phase.ahead])
  | done phase => exact before.ahead_move_lt ⟨_, .idle⟩ (by simp [phase, Phase.ahead])
  | exit phase _ _ => exact before.ahead_move_lt ⟨_, .exited⟩ (by simp [phase, Phase.ahead])

theorem exists_step_of_busy {state : State pool.workers Job Scope Shared}
    (excludes : Excludes state) {worker : Fin pool.workers}
    (busy : (state.workers worker).phase.busy = 1) :
    ∃ event after, pool.Step state event after := by
  have inside {holder : Fin pool.workers}
      (critical : (state.workers holder).phase.InCriticalSection) :
      ∃ event after, pool.Step state event after := by
    cases phase : (state.workers holder).phase with
    | locked job => exact ⟨_, _, .load phase⟩
    | loaded job seen => exact ⟨_, _, .store phase⟩
    | stored job => exact ⟨_, _, .unlock phase⟩
    | idle => simp [phase, Phase.InCriticalSection] at critical
    | received job => simp [phase, Phase.InCriticalSection] at critical
    | worked job => simp [phase, Phase.InCriticalSection] at critical
    | unlocked job => simp [phase, Phase.InCriticalSection] at critical
    | exited => simp [phase, Phase.InCriticalSection] at critical
  cases phase : (state.workers worker).phase with
  | idle => simp [phase, Phase.busy] at busy
  | exited => simp [phase, Phase.busy] at busy
  | received job => exact ⟨_, _, .work phase rfl⟩
  | worked job =>
      cases held : state.mutex with
      | none => exact ⟨_, _, .lock phase held⟩
      | some holder => exact inside ((excludes.holder holder).mpr held)
  | locked job => exact ⟨_, _, .load phase⟩
  | loaded job seen => exact ⟨_, _, .store phase⟩
  | stored job => exact ⟨_, _, .unlock phase⟩
  | unlocked job => exact ⟨_, _, .done phase⟩

/-- Nothing is stuck before the sender has waited. -/
theorem exists_step {state : State pool.workers Job Scope Shared} (workers : 0 < pool.workers)
    (capacity : 0 < pool.capacity) (excludes : Excludes state) (counts : Counts state)
    (waiting : state.waited = false) : ∃ event after, pool.Step state event after := by
  by_cases busy : ∃ worker, (state.workers worker).phase.busy = 1
  · rcases busy with ⟨worker, busy⟩
    exact exists_step_of_busy excludes busy
  · have idle : ∀ worker, (state.workers worker).phase = .idle := by
      intro worker
      cases phase : (state.workers worker).phase with
      | idle => rfl
      | exited =>
          have waited := counts.exited worker phase
          rw [waiting] at waited
          cases waited
      | _ => exact absurd ⟨worker, by rw [phase]; rfl⟩ busy
    cases buffer : state.buffer with
    | cons job rest => exact ⟨_, _, .receive (idle ⟨0, workers⟩) buffer⟩
    | nil =>
        cases remaining : state.remaining with
        | cons job rest => exact ⟨_, _, .send remaining (by simpa [buffer] using capacity)⟩
        | nil =>
            have none : total Phase.busy state.workers = 0 :=
              total_eq_zero fun worker => by rw [idle worker]; rfl
            have counter := counts.counter
            simp only [buffer, remaining, none, List.length_nil] at counter
            exact ⟨_, _, .wait remaining counter waiting⟩

/-! ## Results -/

variable {state : State pool.workers Job Scope Shared}

theorem reachable_excludes (reached : pool.system.Reachable state) : Excludes state := by
  apply reached.invariant
  · rintro _ rfl
    exact excludes_start
  · exact fun _ _ _ holds moves => holds.step moves

theorem reachable_counts (reached : pool.system.Reachable state) : Counts state := by
  apply reached.invariant
  · rintro _ rfl
    exact counts_start
  · exact fun _ _ _ holds moves => holds.step moves

theorem reachable_effects (reached : pool.system.Reachable state) : Effects pool state := by
  have both : Excludes state ∧ Effects pool state := by
    apply reached.invariant
    · rintro _ rfl
      exact ⟨excludes_start, effects_start⟩
    · exact fun _ _ _ holds moves => ⟨holds.1.step moves, holds.2.step holds.1 moves⟩
  exact both.2

theorem reachable_logs (reached : pool.system.Reachable state) : Logs pool state := by
  apply reached.invariant
  · rintro _ rfl
    exact logs_start
  · exact fun _ _ _ holds moves => holds.step moves

theorem counter_nonneg (reached : pool.system.Reachable state) : 0 ≤ state.counter :=
  (reachable_counts reached).nonneg

theorem progress (workers : 0 < pool.workers) (capacity : 0 < pool.capacity)
    (reached : pool.system.Reachable state) (waiting : state.waited = false) :
    ∃ event after, pool.system.step state event after :=
  exists_step workers capacity (reachable_excludes reached) (reachable_counts reached) waiting

theorem quiescent_of_waited (reached : pool.system.Reachable state)
    (waited : state.waited = true) : state.remaining = [] ∧ state.buffer = [] ∧
      ∀ worker, (state.workers worker).phase.busy = 0 := by
  have counts := reachable_counts reached
  rcases counts.waited waited with ⟨remaining, zero⟩
  have counter := counts.counter
  refine ⟨remaining, List.eq_nil_of_length_eq_zero (by omega), fun worker => ?_⟩
  have atMost := le_total Phase.busy state.workers worker
  omega

/-- Once the sender has waited, every job has had its effect exactly once, in some order. -/
theorem effects_of_waited (reached : pool.system.Reachable state) (waited : state.waited = true) :
    ∃ order : List Job, order.Perm pool.jobs ∧
      state.shared = order.foldl pool.effect pool.shared := by
  rcases reachable_effects reached with ⟨order, shared, jobs⟩
  rcases quiescent_of_waited reached waited with ⟨remaining, buffer, idle⟩
  have none : total Phase.unstored state.workers = 0 := by
    apply total_eq_zero
    intro worker
    have notBusy := idle worker
    cases phase : (state.workers worker).phase <;> simp_all [Phase.busy, Phase.unstored]
  refine ⟨order, Multiset.coe_eq_coe.mp ?_, shared⟩
  simpa [remaining, buffer, none] using jobs

theorem log_of_waited (reached : pool.system.Reachable state) (waited : state.waited = true) :
    (state.log.map Prod.fst).Perm pool.jobs := by
  have logs := reachable_logs reached
  rcases quiescent_of_waited reached waited with ⟨remaining, buffer, idle⟩
  have none : total Phase.unworked state.workers = 0 := by
    apply total_eq_zero
    intro worker
    have notBusy := idle worker
    cases phase : (state.workers worker).phase <;> simp_all [Phase.busy, Phase.unworked]
  apply Multiset.coe_eq_coe.mp
  simpa [Logs, remaining, buffer, none] using logs

/-- Every job is worked on with a variable that depends on jobs sent before it only. -/
theorem scoped_of_log (reached : pool.system.Reachable state) :
    ∀ entry ∈ state.log, Scoped pool entry := by
  have ordered : ∃ taken, Ordered pool state taken := by
    apply reached.invariant
    · rintro _ rfl
      exact ⟨[], ordered_start⟩
    · exact fun _ _ _ ⟨_, holds⟩ moves => holds.step moves
  rcases ordered with ⟨taken, ordered⟩
  exact ordered.log

/-- From every reachable state a run goes on to a state in which the sender has waited. -/
theorem exists_waited (workers : 0 < pool.workers) (capacity : 0 < pool.capacity)
    (reached : pool.system.Reachable state) :
    ∃ final, pool.system.Reachable final ∧ final.waited = true := by
  induction steps : state.ahead using Nat.strong_induction_on generalizing state with
  | _ ahead inductionHypothesis =>
      cases waited : state.waited with
      | true => exact ⟨state, reached, waited⟩
      | false =>
          rcases progress workers capacity reached waited with ⟨event, after, moves⟩
          have nearer : after.ahead < ahead := steps ▸ Step.ahead_lt moves
          exact inductionHypothesis _ nearer (reached.next moves) rfl

end Pool

end Foundation
