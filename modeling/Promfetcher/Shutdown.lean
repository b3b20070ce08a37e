import Promfetcher.Foundation.Transition

/-!
# Shutdown on a signal

The goroutines of `main.go` that share the channel `srvSignal`: `main`, the
goroutine that cancels `srvCtx` when it receives a signal, and `RoutesFetcher.Run`,
whose select receives from the same channel. `signal.Notify` puts a signal into
the channel if its buffer of one is free, and drops it otherwise.

The run starts after `signal.Notify`. A failure that ends the process, by
`log.Fatal`, ends the run.
-/

namespace Promfetcher

open Foundation

/-- `healthchecks.Status`. -/
inductive Status where
  | initializing
  | healthy
  | degraded
  deriving DecidableEq, Repr

/-- `HealthCheck.SetHealth`: `Degraded` is final. -/
def setHealth (health status : Status) : Status :=
  if health = .degraded then health else status

/-- The signals that `signal.Notify` is asked for. -/
inductive Signal where
  | sigterm
  | sigint
  | sigquit
  | sigusr1
  deriving DecidableEq, Repr

/-- Where `main` stands. -/
inductive MainAt where
  | startRun
  | startSignals
  | listen
  | awaitReady
  | setHealthy
  | awaitDone
  | shutdown
  deriving DecidableEq, Repr

/-- What `RoutesFetcher.Run` does next. -/
inductive RunAt where
  | notStarted
  | sendStartMessage
  | subscribeToGreetMessage
  | subscribeRoutes
  | closeReady
  | select
  | resendStartMessage
  | returned
  deriving DecidableEq, Repr

/-- Where the goroutine that waits for signals stands. -/
inductive SignalsAt where
  | notStarted
  | receive
  | setDegraded
  | cancel
  | returned
  deriving DecidableEq, Repr

/-- The goroutines, the channels and the health of the process. -/
structure Process where
  main : MainAt := .startRun
  run : RunAt := .notStarted
  signals : SignalsAt := .notStarted
  /-- The buffer of `srvSignal`. -/
  srvSignal : Option Signal := none
  /-- The signals taken from `srvSignal`, in order. -/
  taken : List Signal := []
  ready : Bool := false
  cancelled : Bool := false
  health : Status := .initializing
  deriving DecidableEq, Repr

/-- What may happen next. -/
inductive Action where
  | deliver (sig : Signal)
  /-- The NATS client reports that it has reconnected. -/
  | reconnect
  | main
  | run
  /-- The select of `Run` receives from `srvSignal`. -/
  | runReceives
  | signals
  deriving DecidableEq, Repr

namespace Process

/-- The next statement of `main`. -/
def stepMain (process : Process) : Option Process :=
  match process.main with
  | .startRun => some { process with main := .startSignals, run := .sendStartMessage }
  | .startSignals => some { process with main := .listen, signals := .receive }
  | .listen => some { process with main := .awaitReady }
  | .awaitReady => if process.ready then some { process with main := .setHealthy } else none
  | .setHealthy =>
      some { process with main := .awaitDone, health := setHealth process.health .healthy }
  | .awaitDone => if process.cancelled then some { process with main := .shutdown } else none
  | .shutdown => none

/-- The next statement of `Run`, up to its select and after a reconnection. -/
def stepRun (process : Process) : Option Process :=
  match process.run with
  | .sendStartMessage => some { process with run := .subscribeToGreetMessage }
  | .subscribeToGreetMessage => some { process with run := .subscribeRoutes }
  | .subscribeRoutes => some { process with run := .closeReady }
  | .closeReady => some { process with run := .select, ready := true }
  | .resendStartMessage => some { process with run := .select }
  | .notStarted | .select | .returned => none

/-- The select of `Run` takes the case of `srvSignal`. -/
def stepRunReceives (process : Process) : Option Process :=
  match process.run, process.srvSignal with
  | .select, some sig =>
      some { process with run := .returned, srvSignal := none, taken := process.taken ++ [sig] }
  | _, _ => none

/-- The next statement of the signal goroutine. -/
def stepSignals (process : Process) : Option Process :=
  match process.signals, process.srvSignal with
  | .receive, some sig =>
      some { process with
        signals := if sig = .sigusr1 then .setDegraded else .cancel
        srvSignal := none
        taken := process.taken ++ [sig] }
  | .setDegraded, _ =>
      some { process with signals := .cancel, health := setHealth process.health .degraded }
  | .cancel, _ => some { process with signals := .returned, cancelled := true }
  | _, _ => none

/-- One action, if it can happen. -/
def step (process : Process) : Action → Option Process
  | .deliver sig => some { process with srvSignal := process.srvSignal.or (some sig) }
  | .reconnect =>
      if process.run = .select then some { process with run := .resendStartMessage } else none
  | .main => process.stepMain
  | .run => process.stepRun
  | .runReceives => process.stepRunReceives
  | .signals => process.stepSignals

/-- All interleavings of the goroutines and the signals. -/
def system : System Process Action :=
  .ofFunction {} step

/-- No goroutine can go on before another signal or another reconnection. -/
def Quiescent (process : Process) : Prop :=
  ∀ action ∈ [Action.main, .run, .runReceives, .signals], process.step action = none

instance (process : Process) : Decidable process.Quiescent := by
  unfold Quiescent
  infer_instance

/-- The shutdown has begun, and stays unhealthy if it was asked to be. -/
structure ShutsDown (process : Process) : Prop where
  cancelled : process.cancelled = true
  shutdown : process.main = .shutdown
  degraded : process.taken.head? = some .sigusr1 →
    ∀ later, system.Continues process later → later.health = .degraded

/-- `Run` receives a signal only if one has been received before. -/
def RunYields (process : Process) (action : Action) : Prop :=
  action = .runReceives → process.taken ≠ []

/-! ## What a step does -/

/-- The steps, with what each of them needs. -/
inductive Moves (process : Process) : Action → Process → Prop where
  | deliver (sig : Signal) :
      Moves process (.deliver sig) { process with srvSignal := process.srvSignal.or (some sig) }
  | reconnect (run : process.run = .select) :
      Moves process .reconnect { process with run := .resendStartMessage }
  | startRun (main : process.main = .startRun) :
      Moves process .main { process with main := .startSignals, run := .sendStartMessage }
  | startSignals (main : process.main = .startSignals) :
      Moves process .main { process with main := .listen, signals := .receive }
  | listen (main : process.main = .listen) :
      Moves process .main { process with main := .awaitReady }
  | awaitReady (main : process.main = .awaitReady) (ready : process.ready = true) :
      Moves process .main { process with main := .setHealthy }
  | setHealthy (main : process.main = .setHealthy) :
      Moves process .main
        { process with main := .awaitDone, health := setHealth process.health .healthy }
  | awaitDone (main : process.main = .awaitDone) (cancelled : process.cancelled = true) :
      Moves process .main { process with main := .shutdown }
  | sendStartMessage (run : process.run = .sendStartMessage) :
      Moves process .run { process with run := .subscribeToGreetMessage }
  | subscribeToGreetMessage (run : process.run = .subscribeToGreetMessage) :
      Moves process .run { process with run := .subscribeRoutes }
  | subscribeRoutes (run : process.run = .subscribeRoutes) :
      Moves process .run { process with run := .closeReady }
  | closeReady (run : process.run = .closeReady) :
      Moves process .run { process with run := .select, ready := true }
  | resendStartMessage (run : process.run = .resendStartMessage) :
      Moves process .run { process with run := .select }
  | runReceives {sig : Signal} (run : process.run = .select)
      (srvSignal : process.srvSignal = some sig) :
      Moves process .runReceives
        { process with run := .returned, srvSignal := none, taken := process.taken ++ [sig] }
  | receiveUsr1 (signals : process.signals = .receive)
      (srvSignal : process.srvSignal = some .sigusr1) :
      Moves process .signals
        { process with
          signals := .setDegraded, srvSignal := none, taken := process.taken ++ [.sigusr1] }
  | receive {sig : Signal} (signals : process.signals = .receive)
      (srvSignal : process.srvSignal = some sig) (other : sig ≠ .sigusr1) :
      Moves process .signals
        { process with signals := .cancel, srvSignal := none, taken := process.taken ++ [sig] }
  | setDegraded (signals : process.signals = .setDegraded) :
      Moves process .signals
        { process with signals := .cancel, health := setHealth process.health .degraded }
  | cancel (signals : process.signals = .cancel) :
      Moves process .signals { process with signals := .returned, cancelled := true }

theorem moves_of_step {before after : Process} {action : Action}
    (moves : before.step action = some after) : Moves before action after := by
  cases action with
  | deliver sig =>
      cases moves
      exact .deliver sig
  | reconnect =>
      rw [step, Option.ite_none_right_eq_some] at moves
      rcases moves with ⟨run, ⟨⟩⟩
      exact .reconnect run
  | main =>
      rw [step, stepMain] at moves
      cases main : before.main <;>
        simp only [main, Option.ite_none_right_eq_some, Option.some.injEq, reduceCtorEq] at moves
      · subst moves
        exact .startRun main
      · subst moves
        exact .startSignals main
      · subst moves
        exact .listen main
      · rcases moves with ⟨ready, rfl⟩
        exact .awaitReady main ready
      · subst moves
        exact .setHealthy main
      · rcases moves with ⟨cancelled, rfl⟩
        exact .awaitDone main cancelled
  | run =>
      rw [step, stepRun] at moves
      cases run : before.run <;> simp only [run, Option.some.injEq, reduceCtorEq] at moves <;>
        subst moves
      · exact .sendStartMessage run
      · exact .subscribeToGreetMessage run
      · exact .subscribeRoutes run
      · exact .closeReady run
      · exact .resendStartMessage run
  | runReceives =>
      rw [step, stepRunReceives] at moves
      split at moves
      · next sig run srvSignal =>
          cases moves
          exact .runReceives run srvSignal
      · cases moves
  | signals =>
      rw [step, stepSignals] at moves
      split at moves
      · next sig signals srvSignal =>
          cases moves
          by_cases usr1 : sig = .sigusr1
          · subst usr1
            exact .receiveUsr1 signals srvSignal
          · rw [if_neg usr1]
            exact .receive signals srvSignal usr1
      · next signals =>
          cases moves
          exact .setDegraded signals
      · next signals =>
          cases moves
          exact .cancel signals
      · cases moves

/-! ## Degraded is final -/

theorem setHealth_of_degraded {health : Status} (degraded : health = .degraded)
    (status : Status) : setHealth health status = .degraded := by
  rw [setHealth, if_pos degraded, degraded]

theorem setHealth_degraded (health : Status) : setHealth health .degraded = .degraded := by
  unfold setHealth
  split
  · assumption
  · rfl

theorem degraded_of_moves {before after : Process} {action : Action}
    (moves : Moves before action after) (degraded : before.health = .degraded) :
    after.health = .degraded := by
  cases moves with
  | setHealthy | setDegraded => exact setHealth_of_degraded degraded _
  | _ => exact degraded

theorem degraded_of_continues {process later : Process}
    (continues : system.Continues process later) (degraded : process.health = .degraded) :
    later.health = .degraded := by
  have kept (before : Process) (action : Action) (after : Process)
      (degraded : before.health = .degraded) (moves : system.step before action after) :
      after.health = .degraded :=
    degraded_of_moves (moves_of_step moves) degraded
  exact continues.stable degraded kept

/-! ## Invariants -/

/-- What holds in every run. -/
structure Started (process : Process) : Prop where
  run : process.run = .notStarted → process.main = .startRun
  signals : process.signals = .notStarted ↔
    process.main = .startRun ∨ process.main = .startSignals
  ready : process.run = .select ∨ process.run = .resendStartMessage ∨ process.run = .returned →
    process.ready = true
  cancelled : process.signals = .returned → process.cancelled = true

/-- What holds while `Run` yields: the signal goroutine receives the first signal. -/
structure First (process : Process) : Prop where
  untaken : process.taken = [] ↔ process.signals = .notStarted ∨ process.signals = .receive
  degraded : process.taken.head? = some .sigusr1 →
    process.signals = .setDegraded ∨ process.health = .degraded

theorem Started.step {before after : Process} {action : Action} (started : Started before)
    (moves : Moves before action after) : Started after := by
  rcases started with ⟨run, signals, ready, cancelled⟩
  cases moves <;> constructor <;> simp_all

theorem First.step {before after : Process} {action : Action} (started : Started before)
    (first : First before) (yields : RunYields before action)
    (moves : Moves before action after) : First after := by
  rcases first with ⟨untaken, degraded⟩
  cases moves with
  | deliver | reconnect | listen | awaitReady | awaitDone | sendStartMessage
  | subscribeToGreetMessage | subscribeRoutes | closeReady | resendStartMessage | startRun =>
      exact ⟨untaken, degraded⟩
  | startSignals main =>
      have notStarted := started.signals.mpr (Or.inr main)
      have none : before.taken = [] := untaken.mpr (Or.inl notStarted)
      constructor <;> simp [none]
  | setHealthy =>
      refine ⟨untaken, fun usr1 => (degraded usr1).imp_right ?_⟩
      exact fun degraded => setHealth_of_degraded degraded _
  | runReceives run srvSignal =>
      have some := yields rfl
      rcases List.exists_cons_of_ne_nil some with ⟨sig, rest, taken⟩
      constructor <;> simp_all
  | receiveUsr1 signals =>
      have none : before.taken = [] := untaken.mpr (Or.inr signals)
      constructor <;> simp [none]
  | receive signals _ other =>
      have none : before.taken = [] := untaken.mpr (Or.inr signals)
      constructor <;> simp [none, other]
  | setDegraded signals =>
      have some : before.taken ≠ [] := fun none => by simpa [signals] using untaken.mp none
      exact ⟨by simp [some], fun _ => Or.inr (setHealth_degraded _)⟩
  | cancel signals =>
      have some : before.taken ≠ [] := fun none => by simpa [signals] using untaken.mp none
      refine ⟨by simp [some], fun usr1 => Or.inr ?_⟩
      simpa [signals] using degraded usr1

theorem started_of_reachable {process : Process} (reached : system.Reachable process) :
    Started process := by
  refine reached.invariant ?_ fun before action after started moves =>
    started.step (moves_of_step moves)
  rintro _ rfl
  constructor <;> simp

theorem first_of_reachable {process : Process}
    (reached : system.ReachableUnder RunYields process) : First process := by
  have initially (process : Process) (starts : system.initial process) :
      Started process ∧ First process := by
    cases starts
    constructor <;> constructor <;> simp
  have kept (before : Process) (action : Action) (after : Process)
      (holds : Started before ∧ First before) (yields : RunYields before action)
      (moves : system.step before action after) : Started after ∧ First after :=
    ⟨holds.1.step (moves_of_step moves), holds.2.step holds.1 yields (moves_of_step moves)⟩
  exact (reached.invariant initially kept).2

/-! ## The shutdown -/

/-- When nothing can go on and the signal goroutine has received a signal, `main` shuts down. -/
theorem shutdown_of_quiescent {process : Process} (started : Started process)
    (quiescent : process.Quiescent)
    (received : process.signals ≠ .notStarted ∧ process.signals ≠ .receive) :
    process.signals = .returned ∧ process.main = .shutdown := by
  have signals : process.signals = .returned := by
    have waits : process.stepSignals = none := quiescent .signals (by simp)
    unfold stepSignals at waits
    cases signals : process.signals <;> simp_all
  have run : process.run = .notStarted ∨ process.run = .select ∨ process.run = .returned := by
    have waits : process.stepRun = none := quiescent .run (by simp)
    unfold stepRun at waits
    cases run : process.run <;> simp_all
  have waits : process.stepMain = none := quiescent .main (by simp)
  refine ⟨signals, ?_⟩
  cases main : process.main with
  | startRun | startSignals | listen | setHealthy => simp [stepMain, main] at waits
  | awaitReady =>
      have unready : process.ready ≠ true := by simpa [stepMain, main] using waits
      rcases run with notStarted | select | returned
      · have atStart := started.run notStarted
        simp [main] at atStart
      · exact absurd (started.ready (Or.inl select)) unready
      · exact absurd (started.ready (Or.inr (Or.inr returned))) unready
  | awaitDone =>
      have uncancelled : process.cancelled ≠ true := by simpa [stepMain, main] using waits
      exact absurd (started.cancelled signals) uncancelled
  | shutdown => rfl

/-- If `Run` yields, the process shuts down on a signal. -/
theorem shutsDown {process : Process} (reached : system.ReachableUnder RunYields process)
    (taken : process.taken ≠ []) (quiescent : process.Quiescent) : process.ShutsDown := by
  have started := started_of_reachable reached.reachable
  have first := first_of_reachable reached
  have received := first.untaken.not.mp taken
  push Not at received
  rcases shutdown_of_quiescent started quiescent received with ⟨returned, shutdown⟩
  refine ⟨started.cancelled returned, shutdown, fun usr1 later continues => ?_⟩
  have degraded : process.health = .degraded := by
    simpa [returned] using first.degraded usr1
  exact degraded_of_continues continues degraded

/-- The actions up to the point where the server listens. -/
def startUp : List Action :=
  [.main, .main, .run, .run, .run, .run, .main, .main, .main]

theorem shutsDown_sample :
    ShutsDown
      { main := .shutdown, run := .select, signals := .returned, taken := [.sigusr1],
        ready := true, cancelled := true, health := .degraded } := by
  have ran :
      (startUp ++ [Action.deliver .sigusr1, .signals, .signals, .signals, .main]).foldlM step {} =
        some
          { main := .shutdown, run := .select, signals := .returned, taken := [.sigusr1],
            ready := true, cancelled := true, health := .degraded } := rfl
  refine shutsDown (System.reachableUnder_of_foldlM ?_ ran) (by decide) (by decide)
  rintro before action actionMem rfl
  exact absurd actionMem (by decide)

/-- If `Run` receives the only signal, the process does not shut down. -/
theorem not_shutsDown_always :
    ¬∀ process, system.Reachable process → process.taken ≠ [] → process.Quiescent →
      process.ShutsDown := by
  intro always
  have ran : (startUp ++ [Action.deliver .sigterm, .runReceives]).foldlM step {} =
      some
        { main := .awaitDone, run := .returned, signals := .receive, taken := [.sigterm],
          ready := true, health := .healthy } := rfl
  have reached := System.reachableUnder_of_foldlM (fun _ _ _ => trivial) ran
  have shutsDown := always _ reached (by decide) (by decide)
  exact absurd shutsDown.cancelled (by decide)

end Process

end Promfetcher
