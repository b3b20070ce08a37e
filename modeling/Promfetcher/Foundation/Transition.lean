import Mathlib.Data.List.Induction

/-!
# Transition systems

A state machine is a predicate on initial states and a labelled step relation.
The reachable states are described together with a guard, a condition on the
label of a step and on the state before it, so that "in every run whose steps
all meet the guard" is one inductive predicate. Plain reachability is the case
of the guard that is always met.
-/

namespace Foundation

universe u v

/-- A transition system with labelled steps. -/
structure System (State : Type u) (Label : Type v) where
  initial : State → Prop
  step : State → Label → State → Prop

namespace System

variable {State : Type u} {Label : Type v} {system : System State Label}
  {guard : State → Label → Prop}

/-- The states reached by runs all of whose steps meet `guard`. -/
inductive ReachableUnder (system : System State Label) (guard : State → Label → Prop) :
    State → Prop where
  | initial {state : State} (starts : system.initial state) : ReachableUnder system guard state
  | step {before after : State} {label : Label}
      (reached : ReachableUnder system guard before) (allowed : guard before label)
      (moves : system.step before label after) : ReachableUnder system guard after

/-- The state is reached by some run. -/
def Reachable (system : System State Label) : State → Prop :=
  system.ReachableUnder fun _ _ => True

/-- A predicate that holds initially and is kept by every guarded step holds of every state
reached under the guard. -/
theorem ReachableUnder.invariant {Invariant : State → Prop} {state : State}
    (reached : system.ReachableUnder guard state)
    (initially : ∀ state, system.initial state → Invariant state)
    (kept : ∀ before label after, Invariant before → guard before label →
      system.step before label after → Invariant after) :
    Invariant state := by
  induction reached with
  | initial starts => exact initially _ starts
  | step _ allowed moves inductionHypothesis =>
      exact kept _ _ _ inductionHypothesis allowed moves

theorem Reachable.invariant {Invariant : State → Prop} {state : State}
    (reached : system.Reachable state)
    (initially : ∀ state, system.initial state → Invariant state)
    (kept : ∀ before label after, Invariant before →
      system.step before label after → Invariant after) :
    Invariant state :=
  ReachableUnder.invariant reached initially fun before label after holds _ moves =>
    kept before label after holds moves

theorem ReachableUnder.reachable {state : State} (reached : system.ReachableUnder guard state) :
    system.Reachable state := by
  induction reached with
  | initial starts => exact .initial starts
  | step _ _ moves inductionHypothesis => exact .step inductionHypothesis trivial moves

theorem Reachable.next {before after : State} {label : Label} (reached : system.Reachable before)
    (moves : system.step before label after) : system.Reachable after :=
  .step reached trivial moves

/-- The steps that can still follow a state, in any number. -/
inductive Continues (system : System State Label) : State → State → Prop where
  | refl (state : State) : Continues system state state
  | step {start before after : State} {label : Label} (reached : Continues system start before)
      (moves : system.step before label after) : Continues system start after

theorem Continues.stable {Kept : State → Prop} {start state : State}
    (later : system.Continues start state) (holds : Kept start)
    (kept : ∀ before label after, Kept before → system.step before label after → Kept after) :
    Kept state := by
  induction later with
  | refl => exact holds
  | step _ moves inductionHypothesis => exact kept _ _ _ inductionHypothesis moves

/-! ## Runs -/

/-- The steps of a run, each with the state before it, and the state after them. -/
inductive Run (system : System State Label) (start : State) :
    List (State × Label) → State → Prop where
  | refl : Run system start [] start
  | step {steps : List (State × Label)} {before after : State} {label : Label}
      (earlier : Run system start steps before) (moves : system.step before label after) :
      Run system start (steps ++ [(before, label)]) after

/-- A run from an initial state. -/
structure Execution (system : System State Label) where
  start : State
  steps : List (State × Label)
  last : State
  starts : system.initial start
  runs : system.Run start steps last

/-- The states of an execution, in their order. -/
def Execution.states (execution : system.Execution) : List State :=
  execution.steps.map Prod.fst ++ [execution.last]

theorem Execution.last_mem (execution : system.Execution) : execution.last ∈ execution.states :=
  List.mem_append_right _ List.mem_cons_self

/-- What guarded steps keep holds all along a run all of whose steps meet the guard. -/
theorem Execution.guardedInvariant {Invariant : State → Prop} (execution : system.Execution)
    (initially : ∀ state, system.initial state → Invariant state)
    (kept : ∀ before label after, Invariant before → guard before label →
      system.step before label after → Invariant after)
    (allowed : ∀ step ∈ execution.steps, guard step.1 step.2) :
    ∀ state ∈ execution.states, Invariant state := by
  rcases execution with ⟨start, steps, last, starts, runs⟩
  simp only [states] at allowed ⊢
  induction runs with
  | refl => simpa using initially start starts
  | @step steps before after label _ moves inductionHypothesis =>
      simp only [List.map_append, List.map_singleton, List.forall_mem_append,
        List.forall_mem_singleton] at allowed inductionHypothesis ⊢
      have earlier := inductionHypothesis allowed.1
      exact ⟨earlier, kept _ _ _ earlier.2 allowed.2 moves⟩

/-- If guarded steps keep an invariant that gives a property, and any other step breaks the
property, then the property holds all along a run exactly when all steps of the run meet the
guard. -/
theorem Execution.forall_states_iff {Invariant Property : State → Prop}
    (execution : system.Execution) (initially : ∀ state, system.initial state → Invariant state)
    (kept : ∀ before label after, Invariant before → guard before label →
      system.step before label after → Invariant after)
    (gives : ∀ state, Invariant state → Property state)
    (broken : ∀ before label after, Invariant before → ¬guard before label →
      system.step before label after → ¬Property after) :
    (∀ state ∈ execution.states, Property state) ↔
      ∀ step ∈ execution.steps, guard step.1 step.2 := by
  constructor
  · intro holds
    rcases execution with ⟨start, steps, last, starts, runs⟩
    simp only [states] at holds ⊢
    induction runs with
    | refl => simp
    | @step steps before after label earlier moves inductionHypothesis =>
        simp only [List.map_append, List.map_singleton, List.forall_mem_append,
          List.forall_mem_singleton] at holds inductionHypothesis ⊢
        have allowed := inductionHypothesis holds.1
        have invariant := guardedInvariant ⟨start, steps, before, starts, earlier⟩ initially kept
          allowed before (last_mem _)
        refine ⟨allowed, ?_⟩
        by_contra unguarded
        exact broken _ _ _ invariant unguarded moves holds.2
  · intro allowed state stateMem
    exact gives state (execution.guardedInvariant initially kept allowed state stateMem)

/-- If a step keeps the invariant exactly when it meets the guard, then the invariant holds all
along a run exactly when all steps of the run meet the guard. -/
theorem Execution.throughout_iff {Invariant : State → Prop} (execution : system.Execution)
    (initially : ∀ state, system.initial state → Invariant state)
    (exactly : ∀ before label after, Invariant before → system.step before label after →
      (Invariant after ↔ guard before label)) :
    (∀ state ∈ execution.states, Invariant state) ↔
      ∀ step ∈ execution.steps, guard step.1 step.2 := by
  refine execution.forall_states_iff initially ?_ (fun _ holds => holds) ?_
  · intro before label after holds allowed moves
    exact (exactly before label after holds moves).mpr allowed
  · intro before label after holds unguarded moves
    exact mt (exactly before label after holds moves).mp unguarded

theorem Execution.invariant {Invariant : State → Prop} (execution : system.Execution)
    (initially : ∀ state, system.initial state → Invariant state)
    (kept : ∀ before label after, Invariant before → system.step before label after →
      Invariant after) :
    ∀ state ∈ execution.states, Invariant state :=
  @Execution.guardedInvariant _ _ system (fun _ _ => True) Invariant execution initially
    (fun before label after holds _ moves => kept before label after holds moves)
    fun _ _ => trivial

/-- If a step that spends lowers a potential, and only a step that pays raises it, by at most
`pay`, then the steps that spend are bounded by the potential and by the steps that pay. -/
theorem Run.countP_le {start last : State} {steps : List (State × Label)}
    {potential : State → ℕ} {spends pays : Label → Bool} {pay : ℕ}
    (runs : system.Run start steps last)
    (bounded : ∀ before label after, system.step before label after →
      (spends label).toNat + potential after ≤ potential before + pay * (pays label).toNat) :
    steps.countP (fun step => spends step.2) + potential last ≤
      potential start + pay * steps.countP fun step => pays step.2 := by
  induction runs with
  | refl => simp
  | @step steps before after label _ moves inductionHypothesis =>
      have counted (chosen : Label → Bool) :
          (steps ++ [(before, label)]).countP (fun step => chosen step.2) =
            steps.countP (fun step => chosen step.2) + (chosen label).toNat := by
        cases isChosen : chosen label <;> simp [isChosen]
      have last := bounded before label after moves
      rw [counted, counted, Nat.mul_add]
      omega

/-! ## Steps that compute -/

/-- The system of a step function, from one state. -/
def ofFunction (start : State) (step : State → Label → Option State) : System State Label where
  initial state := state = start
  step before label after := step before label = some after

/-- A run that computes reaches its last state, if all its labels are allowed in every state. -/
theorem reachableUnder_of_foldlM {start state : State} {step : State → Label → Option State}
    {labels : List Label} (allowed : ∀ before, ∀ label ∈ labels, guard before label)
    (ran : labels.foldlM step start = some state) :
    (ofFunction start step).ReachableUnder guard state := by
  induction labels using List.reverseRecOn generalizing state with
  | nil =>
      cases ran
      exact .initial rfl
  | append_singleton labels label inductionHypothesis =>
      simp only [List.foldlM_append, List.foldlM_cons, List.foldlM_nil, Option.bind_eq_bind,
        Option.bind_eq_some_iff, Option.pure_def, Option.some.injEq] at ran
      rcases ran with ⟨before, earlier, after, moves, rfl⟩
      refine .step (inductionHypothesis ?_ earlier) ?_ moves
      · exact fun before label labelMem => allowed before label (List.mem_append_left _ labelMem)
      · exact allowed before label (List.mem_append_right _ List.mem_cons_self)

theorem exists_run_of_foldlM {start state : State} {step : State → Label → Option State}
    {labels : List Label} (moves : ∀ before label after, step before label = some after →
      system.step before label after)
    (ran : labels.foldlM step start = some state) : ∃ steps, system.Run start steps state := by
  induction labels using List.reverseRecOn generalizing state with
  | nil =>
      cases ran
      exact ⟨_, .refl⟩
  | append_singleton labels label inductionHypothesis =>
      simp only [List.foldlM_append, List.foldlM_cons, List.foldlM_nil, Option.bind_eq_bind,
        Option.bind_eq_some_iff, Option.pure_def, Option.some.injEq] at ran
      rcases ran with ⟨before, earlier, after, stepped, rfl⟩
      rcases inductionHypothesis earlier with ⟨steps, runs⟩
      exact ⟨_, runs.step (moves _ _ _ stepped)⟩

/-- What holds all along every run holds of a state that is computed from an initial one. -/
theorem holds_of_foldlM {Property : State → Prop} {start state : State}
    {step : State → Label → Option State} {labels : List Label}
    (always : ∀ execution : system.Execution, ∀ state ∈ execution.states, Property state)
    (starts : system.initial start) (ran : labels.foldlM step start = some state)
    (moves : ∀ before label after, step before label = some after →
      system.step before label after) : Property state := by
  rcases exists_run_of_foldlM moves ran with ⟨steps, runs⟩
  exact always ⟨start, steps, state, starts, runs⟩ state (Execution.last_mem _)

end System

end Foundation
