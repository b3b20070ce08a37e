import Mathlib.Logic.Relation

/-!
# Machines that run until they halt

A deterministic machine either moves to a next state, or halts with a result, or
fails. `run` makes a bounded number of moves. A measure that every move decreases
bounds the moves of a run, an invariant of the moves holds where the machine
stops, and a known sequence of moves determines the outcome.
-/

namespace Foundation

namespace Machine

universe u v w

variable {State : Type u} {Error : Type v} {Result : Type w}
  {next : State → Except Error (State ⊕ Result)}

/-- At most `fuel` moves; none if the machine has not stopped by then. -/
def run (next : State → Except Error (State ⊕ Result)) : Nat → State → Option (Except Error Result)
  | 0, _ => none
  | fuel + 1, state =>
      match next state with
      | .error err => some (.error err)
      | .ok (.inl after) => run next fuel after
      | .ok (.inr result) => some (.ok result)

/-- The machine goes on from one state to the next. -/
def Moves (next : State → Except Error (State ⊕ Result)) (state after : State) : Prop :=
  next state = .ok (.inl after)

/-- Any number of moves. -/
abbrev Reaches (next : State → Except Error (State ⊕ Result)) : State → State → Prop :=
  Relation.ReflTransGen (Moves next)

theorem run_of_moves {state after : State} (moves : Moves next state after) (fuel : Nat) :
    run next (fuel + 1) state = run next fuel after := by
  rw [run, moves]

/-- If every move decreases a measure, the machine stops. -/
theorem run_isSome {measure : State → Nat}
    (decreases : ∀ state after, Moves next state after → measure after < measure state)
    {fuel : Nat} {state : State} (enough : measure state < fuel) :
    (run next fuel state).isSome := by
  induction fuel generalizing state with
  | zero => exact absurd enough (Nat.not_lt_zero _)
  | succ fuel inductionHypothesis =>
      cases stopped : next state with
      | error err => simp [run, stopped]
      | ok moved =>
          cases moved with
          | inr result => simp [run, stopped]
          | inl after =>
              rw [run_of_moves stopped]
              exact inductionHypothesis
                (Nat.lt_of_lt_of_le (decreases state after stopped) (Nat.le_of_lt_succ enough))

/-- How a machine stops in a state. -/
def Stops (next : State → Except Error (State ⊕ Result)) (state : State) :
    Except Error Result → Prop
  | .error err => next state = .error err
  | .ok result => next state = .ok (.inr result)

/-- What every move keeps holds of the state in which the machine stops. -/
theorem run_invariant {Invariant : State → Prop}
    (kept : ∀ state after, Invariant state → Moves next state after → Invariant after)
    {fuel : Nat} {state : State} {outcome : Except Error Result}
    (ran : run next fuel state = some outcome) (holds : Invariant state) :
    ∃ last, Invariant last ∧ Stops next last outcome := by
  induction fuel generalizing state with
  | zero => cases ran
  | succ fuel inductionHypothesis =>
      cases stopped : next state with
      | error err =>
          rw [run, stopped] at ran
          cases ran
          exact ⟨state, holds, stopped⟩
      | ok moved =>
          cases moved with
          | inr result =>
              rw [run, stopped] at ran
              cases ran
              exact ⟨state, holds, stopped⟩
          | inl after =>
              rw [run_of_moves stopped] at ran
              exact inductionHypothesis ran (kept state after holds stopped)

/-- A run that stops has the outcome to which its moves lead. -/
theorem run_of_reaches {state last : State} {outcome : Except Error Result}
    (reaches : Reaches next state last) (stops : Stops next last outcome) {fuel : Nat}
    (enough : (run next fuel state).isSome) : run next fuel state = some outcome := by
  induction reaches using Relation.ReflTransGen.head_induction_on generalizing fuel with
  | refl =>
      cases fuel with
      | zero => cases enough
      | succ fuel =>
          cases outcome with
          | error err => rw [run, show next last = .error err from stops]
          | ok result => rw [run, show next last = .ok (.inr result) from stops]
  | head moves _ inductionHypothesis =>
      cases fuel with
      | zero => cases enough
      | succ fuel =>
          rw [run_of_moves moves] at enough ⊢
          exact inductionHypothesis enough

end Machine

end Foundation
