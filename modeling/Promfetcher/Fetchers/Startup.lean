import Promfetcher.Fetchers.RoutesFetcher
import Promfetcher.Foundation.Bus

/-!
# The start of the routes fetcher

`RoutesFetcher.Run` publishes `router.start`, to which emitters answer with their
registrations, and subscribes to `router.*` two operations later. An answer that the
server carries out before that subscription is handed to nobody.

The limit of pending messages that `subscribeRoutes` sets is left out.
-/

namespace Promfetcher

open Foundation

namespace RoutesFetcher

/-! ## Subjects -/

/-- The byte between the tokens of a subject. -/
def dot : UInt8 := 0x2E

/-- The tokens of a subscription cover those of a subject: `*` stands for any token, and `>` at the
end for one or more. -/
def tokensCover : List GoString → List GoString → Bool
  | [], [] => true
  | token :: tokens, other :: others =>
      if token = text ">" ∧ tokens = [] then true
      else (token == text "*" || token == other) && tokensCover tokens others
  | _, _ => false

/-- A message of this subject is handed to the subscription. -/
def covers (subscription subject : GoString) : Bool :=
  tokensCover (subscription.splitOn dot) (subject.splitOn dot)

/-- The subject on which a router says that it has started. -/
def startSubject : GoString := text "router.start"

/-- The subject on which promfetcher asks for the routes. -/
def greetSubject : GoString := text "router.greet"

/-- The subject to which promfetcher subscribes. -/
def routesSubject : GoString := text "router.*"

/-! ## The parties -/

/-- The clients of the server: promfetcher, and those who emit routes. -/
inductive Party where
  | promfetcher
  | emitter (id : Nat)
  deriving DecidableEq, Repr

/-- What a client asks of the server. -/
abbrev NatsOperation := BusOperation GoString GoString

/-- A message on its way to a client. -/
abbrev NatsDelivery := Delivery Party GoString GoString

/-- The operations of `Run` before its loop: those of `sendStartMessage`, of
`subscribeToGreetMessage` and of `subscribeRoutes`. -/
def runOperations (startMessage : GoString) : List NatsOperation :=
  [.publish startSubject startMessage, .subscribe greetSubject, .subscribe routesSubject]

/-- The connections, what `Run` has still to do, and what the emitters and the callback have
done. -/
structure Startup where
  bus : Bus Party GoString GoString
  remaining : List NatsOperation
  /-- The emitters that have got the start message. -/
  asked : Nat → Bool
  /-- The registrations that each emitter has published in answer, in order. -/
  answered : Nat → List GoString
  /-- What the callback of `subscribeRoutes` has been called with, in order. -/
  handled : List NatsDelivery

/-- What may happen next, at promfetcher, at the server or at an emitter. -/
inductive StartupEvent where
  | run
  | serve (party : Party)
  | handle
  | subscribe (id : Nat)
  | receive (id : Nat)
  | answer (id : Nat) (registration : GoString)

namespace Startup

/-- One event, if it can happen. -/
def step (state : Startup) : StartupEvent → Option Startup
  | .run =>
      match state.remaining with
      | [] => none
      | operation :: remaining =>
          some { state with bus := state.bus.send .promfetcher operation, remaining := remaining }
  | .serve party => (state.bus.serve covers party).map fun bus => { state with bus := bus }
  | .handle =>
      (state.bus.receive .promfetcher routesSubject).map fun received =>
        { state with bus := received.2, handled := state.handled ++ [received.1] }
  | .subscribe id =>
      some { state with bus := state.bus.send (.emitter id) (.subscribe startSubject) }
  | .receive id =>
      (state.bus.receive (.emitter id) startSubject).map fun received =>
        { state with bus := received.2, asked := Function.update state.asked id true }
  | .answer id registration =>
      if state.asked id then
        some { state with
          bus := state.bus.send (.emitter id) (.publish registerSubject registration)
          answered := Function.update state.answered id (state.answered id ++ [registration]) }
      else none

/-- The start of a fetcher that carries out these operations. -/
def system (operations : List NatsOperation) : System Startup StartupEvent where
  initial state := state =
    { bus := Bus.empty
      remaining := operations
      asked := fun _ => false
      answered := fun _ => []
      handled := [] }
  step before event after := before.step event = some after

/-- The registrations of an emitter among some messages. -/
def registrationsOf (id : Nat) (deliveries : List NatsDelivery) : List GoString :=
  (deliveries.filter fun delivery => delivery.sender = .emitter id).map Delivery.payload

/-- What the callback has got or will get. -/
def delivered (state : Startup) : List NatsDelivery :=
  state.handled ++ state.bus.inbox .promfetcher routesSubject

/-- Every answer of the emitter has been given to the callback, or is on its way to it. -/
def AnswersKept (state : Startup) (id : Nat) : Prop :=
  state.answered id = registrationsOf id state.delivered ++
    (state.bus.outgoing (.emitter id)).filterMap BusOperation.published

/-- No registration that has been published in answer to the start message is missed. -/
def NotMissed (state : Startup) : Prop :=
  ∀ id, state.AnswersKept id

/-- If the server carries out the publication of an answer, it knows the subscription of
`subscribeRoutes`. -/
def Awaited (state : Startup) : StartupEvent → Prop
  | .serve (.emitter id) => ∀ subject payload rest,
      state.bus.outgoing (.emitter id) = .publish subject payload :: rest →
        routesSubject ∈ state.bus.subscriptions .promfetcher
  | _ => True

/-- What holds in all runs: the operations of the fetcher are carried out in order, and the emitters
subscribe to the start message and publish registrations. -/
structure Orderly (operations : List NatsOperation) (state : Startup) : Prop where
  inOrder : ∃ done, done ++ state.bus.outgoing .promfetcher ++ state.remaining = operations ∧
    state.bus.subscriptions .promfetcher = done.filterMap BusOperation.subscribed
  emitters : ∀ id, ∀ operation ∈ state.bus.outgoing (.emitter id),
    operation = .subscribe startSubject ∨
      ∃ registration, operation = .publish registerSubject registration

/-! ## One step -/

/-- What a step does, with what each case needs. -/
inductive Steps (before : Startup) : StartupEvent → Startup → Prop where
  | run {operation : NatsOperation} {remaining : List NatsOperation}
      (next : before.remaining = operation :: remaining) :
      Steps before .run { before with
        bus := before.bus.send .promfetcher operation, remaining := remaining }
  | serve {party : Party} {operation : NatsOperation} {rest : List NatsOperation}
      (next : before.bus.outgoing party = operation :: rest) :
      Steps before (.serve party) { before with
        bus := before.bus.afterServe covers party operation rest }
  | handle {delivery : NatsDelivery} {rest : List NatsDelivery}
      (next : before.bus.inbox .promfetcher routesSubject = delivery :: rest) :
      Steps before .handle { before with
        bus := before.bus.afterReceive .promfetcher routesSubject rest
        handled := before.handled ++ [delivery] }
  | subscribe (id : Nat) :
      Steps before (.subscribe id) { before with
        bus := before.bus.send (.emitter id) (.subscribe startSubject) }
  | receive {id : Nat} {delivery : NatsDelivery} {rest : List NatsDelivery}
      (next : before.bus.inbox (.emitter id) startSubject = delivery :: rest) :
      Steps before (.receive id) { before with
        bus := before.bus.afterReceive (.emitter id) startSubject rest
        asked := Function.update before.asked id true }
  | answer {id : Nat} (registration : GoString) (asked : before.asked id = true) :
      Steps before (.answer id registration) { before with
        bus := before.bus.send (.emitter id) (.publish registerSubject registration)
        answered := Function.update before.answered id (before.answered id ++ [registration]) }

variable {before after : Startup} {event : StartupEvent} {operations : List NatsOperation}

theorem steps_of_step (moves : before.step event = some after) : before.Steps event after := by
  cases event with
  | run =>
      simp only [step] at moves
      split at moves
      · cases moves
      · next next =>
          cases moves
          exact .run next
  | serve party =>
      rcases Option.map_eq_some_iff.mp moves with ⟨bus, served, rfl⟩
      rcases Bus.serve_eq_some served with ⟨operation, rest, next, rfl⟩
      exact .serve next
  | handle =>
      rcases Option.map_eq_some_iff.mp moves with ⟨⟨delivery, bus⟩, received, rfl⟩
      rcases Bus.receive_eq_some received with ⟨rest, next, rfl⟩
      exact .handle next
  | subscribe id =>
      cases moves
      exact .subscribe id
  | receive id =>
      rcases Option.map_eq_some_iff.mp moves with ⟨⟨delivery, bus⟩, received, rfl⟩
      rcases Bus.receive_eq_some received with ⟨rest, next, rfl⟩
      exact .receive next
  | answer id registration =>
      simp only [step] at moves
      split at moves
      · next asked =>
          cases moves
          exact .answer registration asked
      · cases moves

/-- Another operation of an emitter. -/
theorem Orderly.send (orderly : before.Orderly operations) {id : Nat} {operation : NatsOperation}
    (right : operation = .subscribe startSubject ∨
      ∃ registration, operation = .publish registerSubject registration) :
    ∀ other, ∀ sent ∈ (before.bus.send (.emitter id) operation).outgoing (.emitter other),
      sent = .subscribe startSubject ∨
        ∃ registration, sent = .publish registerSubject registration := by
  intro other sent sentMem
  rcases Bus.mem_outgoing_send sentMem with earlier | ⟨_, rfl⟩
  · exact orderly.emitters other sent earlier
  · exact right

theorem Orderly.step (orderly : before.Orderly operations) (steps : before.Steps event after) :
    after.Orderly operations := by
  rcases orderly.inOrder with ⟨done, inOrder, subscriptions⟩
  cases steps with
  | run next =>
      refine ⟨⟨done, ?_, subscriptions⟩, fun id => ?_⟩
      · simpa [next] using inOrder
      · simpa using orderly.emitters id
  | @serve party operation rest next =>
      cases party with
      | promfetcher =>
          refine ⟨⟨done ++ [operation], ?_, ?_⟩, fun id => ?_⟩
          · simpa [next] using inOrder
          · rw [Bus.afterServe_subscriptions_self, subscriptions, List.filterMap_append]
            cases operation <;> rfl
          · simpa using orderly.emitters id
      | emitter id =>
          refine ⟨⟨done, by simpa using inOrder, by simpa using subscriptions⟩, fun other => ?_⟩
          intro sent sentMem
          exact orderly.emitters other sent (Bus.mem_outgoing_afterServe next sentMem)
  | handle => exact ⟨⟨done, inOrder, subscriptions⟩, orderly.emitters⟩
  | receive => exact ⟨⟨done, inOrder, subscriptions⟩, orderly.emitters⟩
  | subscribe id =>
      exact ⟨⟨done, by simpa using inOrder, subscriptions⟩, orderly.send (Or.inl rfl)⟩
  | @answer id registration =>
      exact ⟨⟨done, by simpa using inOrder, subscriptions⟩, orderly.send (Or.inr ⟨_, rfl⟩)⟩

/-! ## Answers on their way -/

@[simp]
theorem registrationsOf_append (id : Nat) (earlier later : List NatsDelivery) :
    registrationsOf id (earlier ++ later) =
      registrationsOf id earlier ++ registrationsOf id later := by
  simp [registrationsOf]

theorem registrationsOf_handed_of_ne {bus : Bus Party GoString GoString} {party : Party} {id : Nat}
    (ne : party ≠ .emitter id) (operation : NatsOperation) :
    registrationsOf id (bus.handed covers party operation .promfetcher routesSubject) = [] := by
  cases operation with
  | subscribe subject => rfl
  | publish subject payload =>
      simp only [Bus.handed]
      split
      · simp [registrationsOf, ne]
      · rfl

theorem registrationsOf_handed_self (bus : Bus Party GoString GoString) (id : Nat)
    (registration : GoString) :
    registrationsOf id (bus.handed covers (.emitter id) (.publish registerSubject registration)
      .promfetcher routesSubject) =
        List.replicate (bus.times .promfetcher routesSubject) registration := by
  have covered : covers routesSubject registerSubject = true := by
    decide
  simp [Bus.handed, covered, registrationsOf]

theorem Orderly.nodup (orderly : before.Orderly operations)
    (once : (operations.filterMap BusOperation.subscribed).Nodup) :
    (before.bus.subscriptions .promfetcher).Nodup := by
  rcases orderly.inOrder with ⟨done, rfl, subscriptions⟩
  rw [List.append_assoc, List.filterMap_append] at once
  rw [subscriptions]
  exact once.of_append_left

section

variable (kept : ∀ id, before.AnswersKept id)

include kept

theorem answersKept_serve_of_ne {party : Party} {id : Nat} (ne : party ≠ .emitter id)
    (operation : NatsOperation) (rest : List NatsOperation) :
    AnswersKept { before with bus := before.bus.afterServe covers party operation rest } id := by
  have earlier := kept id
  simp only [AnswersKept, delivered, registrationsOf_append] at earlier
  simp only [AnswersKept, delivered, Bus.afterServe, registrationsOf_append,
    registrationsOf_handed_of_ne ne, List.append_nil, Function.update_of_ne (Ne.symm ne)]
  exact earlier

theorem answersKept_serve_subscribe {id : Nat} {subject : GoString} {rest : List NatsOperation}
    (next : before.bus.outgoing (.emitter id) = .subscribe subject :: rest) :
    AnswersKept { before with
      bus := before.bus.afterServe covers (.emitter id) (.subscribe subject) rest } id := by
  have earlier := kept id
  simp only [AnswersKept, next, List.filterMap_cons, BusOperation.published] at earlier
  simpa [AnswersKept, delivered, Bus.afterServe, Bus.handed] using earlier

/-- An answer is kept if it is handed to one subscription. -/
theorem answersKept_serve_publish {id : Nat} {registration : GoString} {rest : List NatsOperation}
    (next : before.bus.outgoing (.emitter id) = .publish registerSubject registration :: rest) :
    AnswersKept { before with
      bus := before.bus.afterServe covers (.emitter id) (.publish registerSubject registration)
        rest } id ↔ before.bus.times .promfetcher routesSubject = 1 := by
  have earlier := kept id
  simp only [AnswersKept, delivered, next, List.filterMap_cons, BusOperation.published,
    registrationsOf_append] at earlier
  simp only [AnswersKept, delivered, Bus.afterServe, registrationsOf_append,
    registrationsOf_handed_self, Function.update_self, earlier]
  constructor
  · intro same
    have lengths := congrArg List.length same
    simp only [List.length_append, List.length_cons, List.length_replicate] at lengths
    omega
  · intro once
    simp [once]

end

/-- If the server carries out an operation of an emitter, nothing is missed exactly if it has
known the subscription or the operation is no answer. -/
theorem notMissed_serve_iff (orderly : before.Orderly operations)
    (once : (operations.filterMap BusOperation.subscribed).Nodup) (holds : before.NotMissed)
    {id : Nat} {operation : NatsOperation} {rest : List NatsOperation}
    (next : before.bus.outgoing (.emitter id) = operation :: rest) :
    NotMissed { before with
      bus := before.bus.afterServe covers (.emitter id) operation rest } ↔
        before.Awaited (.serve (.emitter id)) := by
  have own : NotMissed { before with
      bus := before.bus.afterServe covers (.emitter id) operation rest } ↔
        AnswersKept { before with
          bus := before.bus.afterServe covers (.emitter id) operation rest } id := by
    refine ⟨fun kept => kept id, fun kept other => ?_⟩
    by_cases same : other = id
    · exact same ▸ kept
    · exact answersKept_serve_of_ne holds (by simpa using Ne.symm same) operation rest
  rw [own]
  rcases orderly.emitters id operation (next ▸ List.mem_cons_self) with
    rfl | ⟨registration, rfl⟩
  · refine iff_of_true (answersKept_serve_subscribe holds next) ?_
    intro subject payload later publishes
    rw [next] at publishes
    cases publishes
  · have atMostOnce : before.bus.times .promfetcher routesSubject ≤ 1 :=
      Bus.times_le_one (orderly.nodup once)
    have awaited : before.Awaited (.serve (.emitter id)) ↔
        0 < before.bus.times .promfetcher routesSubject := by
      rw [Bus.times_pos_iff]
      exact ⟨fun known => known _ _ _ next, fun known _ _ _ _ => known⟩
    rw [answersKept_serve_publish holds next, awaited]
    omega

/-- What is not missed stays so exactly if the publication of an answer is awaited. -/
theorem notMissed_step_iff (orderly : before.Orderly operations)
    (once : (operations.filterMap BusOperation.subscribed).Nodup)
    (holds : before.NotMissed) (steps : before.Steps event after) :
    after.NotMissed ↔ before.Awaited event := by
  cases steps with
  | run =>
      refine iff_of_true (fun id => ?_) trivial
      simpa [AnswersKept, delivered] using holds id
  | handle next =>
      refine iff_of_true (fun id => ?_) trivial
      simpa [AnswersKept, delivered, next] using holds id
  | receive next =>
      refine iff_of_true (fun id => ?_) trivial
      simpa [AnswersKept, delivered] using holds id
  | subscribe id =>
      refine iff_of_true (fun other => ?_) trivial
      by_cases same : other = id
      · subst same
        simpa [AnswersKept, delivered, BusOperation.published, List.filterMap_cons]
          using holds other
      · have ne : Party.emitter other ≠ .emitter id := by simpa using same
        simpa [AnswersKept, delivered, ne] using holds other
  | @answer id registration =>
      refine iff_of_true (fun other => ?_) trivial
      have earlier := holds other
      simp only [AnswersKept, delivered] at earlier
      by_cases same : other = id
      · subst same
        simp [AnswersKept, delivered, BusOperation.published, earlier]
      · have ne : Party.emitter other ≠ .emitter id := by simpa using same
        simpa [AnswersKept, delivered, ne, same] using earlier
  | @serve party operation rest next =>
      cases party with
      | promfetcher =>
          exact iff_of_true (fun id => answersKept_serve_of_ne holds (by simp) operation rest)
            trivial
      | emitter id => exact notMissed_serve_iff orderly once holds next

/-- Once nothing is on its way, the callback has been called with all answers. -/
theorem AnswersKept.handled {state : Startup} {id : Nat} (kept : state.AnswersKept id)
    (carriedOut : state.bus.outgoing (.emitter id) = [])
    (taken : state.bus.inbox .promfetcher routesSubject = []) :
    state.answered id = registrationsOf id state.handled := by
  simpa [AnswersKept, delivered, carriedOut, taken] using kept

/-! ## Whole runs -/

theorem orderly_of_initial {state : Startup} (starts : (system operations).initial state) :
    state.Orderly operations := by
  cases starts
  exact ⟨⟨[], rfl, rfl⟩, fun _ _ none => absurd none List.not_mem_nil⟩

theorem notMissed_of_initial {state : Startup} (starts : (system operations).initial state) :
    state.NotMissed := by
  cases starts
  exact fun _ => rfl

theorem orderly_states (execution : (system operations).Execution) :
    ∀ state ∈ execution.states, state.Orderly operations :=
  execution.invariant (fun _ starts => orderly_of_initial starts)
    fun _ _ _ orderly moves => orderly.step (steps_of_step moves)

/-- If the fetcher subscribes once, no answer is missed exactly if the server carries out none
before the subscription. -/
theorem notMissed_states_iff (once : (operations.filterMap BusOperation.subscribed).Nodup)
    (execution : (system operations).Execution) :
    (∀ state ∈ execution.states, state.NotMissed) ↔
      ∀ step ∈ execution.steps, step.1.Awaited step.2 := by
  have both : (∀ state ∈ execution.states, state.Orderly operations ∧ state.NotMissed) ↔
      ∀ step ∈ execution.steps, step.1.Awaited step.2 := by
    apply execution.throughout_iff
    · exact fun _ starts => ⟨orderly_of_initial starts, notMissed_of_initial starts⟩
    · rintro before event after ⟨orderly, holds⟩ moves
      have steps := steps_of_step moves
      rw [and_iff_right (orderly.step steps)]
      exact notMissed_step_iff orderly once holds steps
  rw [← both]
  exact forall₂_congr fun state stateMem =>
    (and_iff_right (orderly_states execution state stateMem)).symm

theorem nodup_runOperations (startMessage : GoString) :
    ((runOperations startMessage).filterMap BusOperation.subscribed).Nodup := by
  change [greetSubject, routesSubject].Nodup
  decide

/-- In a run of the start of `Run`, no answer is missed exactly if the server carries out none
before the subscription of `subscribeRoutes`. -/
theorem notMissed_iff (startMessage : GoString)
    (execution : (system (runOperations startMessage)).Execution) :
    (∀ state ∈ execution.states, state.NotMissed) ↔
      ∀ step ∈ execution.steps, step.1.Awaited step.2 :=
  notMissed_states_iff (nodup_runOperations startMessage) execution

/-! ## The other order -/

/-- The subscription of `subscribeRoutes` comes before all publications. -/
def SubscribesFirst (operations : List NatsOperation) : Prop :=
  ∀ done subject payload rest, operations = done ++ .publish subject payload :: rest →
    .subscribe routesSubject ∈ done

/-- No emitter has been asked to register. -/
structure Quiet (state : Startup) : Prop where
  asked : ∀ id, state.asked id = false
  inbox : ∀ id, state.bus.inbox (.emitter id) startSubject = []
  outgoing : ∀ id, ∀ operation ∈ state.bus.outgoing (.emitter id), operation.published = none

theorem subset_subscriptions (steps : before.Steps event after) :
    before.bus.subscriptions .promfetcher ⊆ after.bus.subscriptions .promfetcher := by
  cases steps with
  | @serve party operation rest next =>
      cases party with
      | promfetcher =>
          simp only [Bus.afterServe_subscriptions_self]
          exact List.subset_append_left _ _
      | emitter id => simp
  | _ => simp

/-- An operation that publishes nothing hands nothing over. -/
theorem handed_of_published_eq_none {bus : Bus Party GoString GoString} {party other : Party}
    {operation : NatsOperation} {subscription : GoString}
    (silent : operation.published = none) :
    bus.handed covers party operation other subscription = [] := by
  cases operation with
  | subscribe subject => rfl
  | publish subject payload => cases silent

/-- As long as the server does not know the subscription, the fetcher has published nothing. -/
theorem Orderly.silent (orderly : before.Orderly operations) (first : SubscribesFirst operations)
    (unknown : routesSubject ∉ before.bus.subscriptions .promfetcher) {operation : NatsOperation}
    {rest : List NatsOperation}
    (next : before.bus.outgoing .promfetcher = operation :: rest) :
    operation.published = none := by
  cases operation with
  | subscribe subject => rfl
  | publish subject payload =>
      rcases orderly.inOrder with ⟨done, inOrder, subscriptions⟩
      rw [next, List.append_assoc, List.cons_append] at inOrder
      have subscribed := first done subject payload _ inOrder.symm
      have known : routesSubject ∈ done.filterMap BusOperation.subscribed :=
        List.mem_filterMap.mpr ⟨_, subscribed, rfl⟩
      exact absurd (subscriptions ▸ known) unknown

theorem Quiet.serve (quiet : before.Quiet) {party : Party} {operation : NatsOperation}
    {rest : List NatsOperation} (next : before.bus.outgoing party = operation :: rest)
    (silent : operation.published = none) :
    Quiet { before with bus := before.bus.afterServe covers party operation rest } where
  asked := quiet.asked
  inbox id := by
    simp [Bus.afterServe, handed_of_published_eq_none silent, quiet.inbox id]
  outgoing id sent sentMem :=
    quiet.outgoing id sent (Bus.mem_outgoing_afterServe next sentMem)

theorem Quiet.step (quiet : before.Quiet) (orderly : before.Orderly operations)
    (first : SubscribesFirst operations)
    (unknown : routesSubject ∉ before.bus.subscriptions .promfetcher)
    (steps : before.Steps event after) : after.Quiet := by
  cases steps with
  | run => exact ⟨quiet.asked, quiet.inbox, by simpa using quiet.outgoing⟩
  | handle => exact ⟨quiet.asked, by simpa using quiet.inbox, quiet.outgoing⟩
  | @serve party operation rest next =>
      cases party with
      | promfetcher => exact quiet.serve next (orderly.silent first unknown next)
      | emitter id =>
          exact quiet.serve next (quiet.outgoing id operation (next ▸ List.mem_cons_self))
  | @receive id _ _ next =>
      rw [quiet.inbox id] at next
      cases next
  | @answer id _ asked =>
      rw [quiet.asked id] at asked
      cases asked
  | subscribe id =>
      refine ⟨quiet.asked, quiet.inbox, fun other sent sentMem => ?_⟩
      rcases Bus.mem_outgoing_send sentMem with earlier | ⟨_, rfl⟩
      · exact quiet.outgoing other sent earlier
      · rfl

/-- The server knows the subscription before any emitter has been asked to register. -/
structure Prepared (operations : List NatsOperation) (state : Startup) : Prop where
  orderly : state.Orderly operations
  known : routesSubject ∈ state.bus.subscriptions .promfetcher ∨ state.Quiet

theorem prepared_of_initial {state : Startup} (starts : (system operations).initial state) :
    state.Prepared operations := by
  refine ⟨orderly_of_initial starts, Or.inr ?_⟩
  cases starts
  exact ⟨fun _ => rfl, fun _ => rfl, fun _ _ none => absurd none List.not_mem_nil⟩

theorem Prepared.step (prepared : before.Prepared operations) (first : SubscribesFirst operations)
    (steps : before.Steps event after) : after.Prepared operations := by
  refine ⟨prepared.orderly.step steps, ?_⟩
  by_cases known : routesSubject ∈ before.bus.subscriptions .promfetcher
  · exact Or.inl (subset_subscriptions steps known)
  · have quiet := prepared.known.resolve_left known
    exact Or.inr (quiet.step prepared.orderly first known steps)

/-- Had the fetcher subscribed first, no answer could be missed. -/
theorem notMissed_of_subscribesFirst
    (once : (operations.filterMap BusOperation.subscribed).Nodup)
    (first : SubscribesFirst operations) (execution : (system operations).Execution) :
    ∀ state ∈ execution.states, state.NotMissed := by
  have prepared := execution.invariant (fun _ starts => prepared_of_initial starts)
    fun _ _ _ holds moves => holds.step first (steps_of_step moves)
  rw [notMissed_states_iff once]
  rintro ⟨state, event⟩ stepMem
  cases event with
  | serve party =>
      cases party with
      | promfetcher => trivial
      | emitter id =>
          intro subject payload rest next
          have stateMem : state ∈ execution.states :=
            List.mem_append_left _ (List.mem_map_of_mem stepMem)
          refine (prepared state stateMem).known.resolve_right fun quiet => ?_
          have silent := quiet.outgoing id _ (next ▸ List.mem_cons_self)
          cases silent
  | _ => trivial

/-! ## The race -/

/-- An emitter answers before the server knows the subscription. -/
def quickAnswer : List StartupEvent :=
  [.subscribe 0, .serve (.emitter 0), .run, .serve .promfetcher, .receive 0,
    .answer 0 (text "\x7b\"uris\":[\"a.com\"]\x7d"), .serve (.emitter 0)]

/-- The registration of an emitter that answers at once is lost. -/
theorem not_notMissed_always :
    ¬∀ (startMessage : GoString) (execution : (system (runOperations startMessage)).Execution),
      ∀ state ∈ execution.states, state.NotMissed := by
  intro always
  let start : Startup :=
    { bus := Bus.empty
      remaining := runOperations []
      asked := fun _ => false
      answered := fun _ => []
      handled := [] }
  have lost : (quickAnswer.foldlM step start).map (fun state => (state.answered 0,
      registrationsOf 0 state.delivered ++
        (state.bus.outgoing (.emitter 0)).filterMap BusOperation.published)) =
          some ([text "\x7b\"uris\":[\"a.com\"]\x7d"], []) := by
    decide
  rcases Option.map_eq_some_iff.mp lost with ⟨last, ran, parts⟩
  have kept := System.holds_of_foldlM (always []) rfl ran (fun _ _ _ moves => moves) 0
  rcases Prod.mk.inj parts with ⟨answered, rest⟩
  rw [AnswersKept, answered, rest] at kept
  cases kept

end Startup

end RoutesFetcher

end Promfetcher
