import Promfetcher.Api.Broker
import Promfetcher.Foundation.Transition

/-!
# Concurrent requests to the broker

Every statement of a request is atomic, but no transaction joins the two of `Bind`.
A row that is inserted for the app between them stays when `Bind` inserts its own, and
the app then has two endpoints.
-/

namespace Promfetcher

open Foundation

/-- How far a request has come. -/
inductive Session where
  | arrived (request : BrokerRequest)
  /-- `Bind` has deleted the rows of the app, and creates one next. -/
  | creates (details : BindDetails) (params : BrokerParams)
  | returned (result : Except BrokerError Unit)

/-- The next statement of a request, with the code around it. -/
def Session.next (faults : Faults) (store : Store) : Session → Option (Store × Session)
  | .arrived (.bind details) =>
      match loadParams details.rawParameters with
      | none => some (store, .returned (.error .loadingParams))
      | some params =>
          if params.endpoint ≠ [] ∧ params.endpoint.head? ≠ some slash then
            some (store, .returned (.error .notAPath))
          else
            let store := Store.delete faults (fun row => row.appGUID == details.appGUID) store
            if params.endpoint = [] then some (store, .returned (.ok ()))
            else some (store, .creates details params)
  | .arrived (.unbind bindingID) =>
      some (Store.delete faults (fun row => row.guid == bindingID) store, .returned (.ok ()))
  | .creates details params =>
      match Store.create faults ⟨details.bindingID, details.appGUID, params.endpoint⟩ store with
      | none => some (store, .returned (.error .creating))
      | some store => some (store, .returned (.ok ()))
  | .returned _ => none

/-- The table, and the requests that have arrived. -/
structure BrokerState where
  store : Store
  session : Nat → Option Session

/-- A request arrives, or the next statement of one is executed. -/
inductive BrokerEvent where
  | arrive (id : Nat) (request : BrokerRequest)
  | statement (id : Nat) (faults : Faults)

namespace BrokerState

/-- One event, if it can happen. -/
def step (state : BrokerState) : BrokerEvent → Option BrokerState
  | .arrive id request =>
      match state.session id with
      | none => some { state with
          session := Function.update state.session id (some (.arrived request)) }
      | some _ => none
  | .statement id faults => do
      let session ← state.session id
      let (store, next) ← session.next faults state.store
      return ⟨store, Function.update state.session id (some next)⟩

/-- No app has two rows, so that `First` has no choice. -/
def OneEndpoint (state : BrokerState) : Prop :=
  ∀ row ∈ state.store, ∀ other ∈ state.store, row.appGUID = other.appGUID → row = other

/-- If the step is the `INSERT` of a `Bind`, the app has no row, or the database refuses the new
one. -/
def Undisturbed (state : BrokerState) : BrokerEvent → Prop
  | .arrive _ _ => True
  | .statement id faults => ∀ details params,
      state.session id = some (.creates details params) →
        (∀ row ∈ state.store, row.appGUID ≠ details.appGUID) ∨
          faults.create = true ∨ ∃ row ∈ state.store, row.guid = details.bindingID

/-- If the step is the `DELETE` of a `Bind`, it succeeds, and no other `Bind` of the app is between
its two statements. -/
def Apart (state : BrokerState) : BrokerEvent → Prop
  | .arrive _ _ => True
  | .statement id faults => ∀ details,
      state.session id = some (.arrived (.bind details)) → faults.delete = false ∧
        ∀ other otherDetails params,
          state.session other = some (.creates otherDetails params) →
            otherDetails.appGUID ≠ details.appGUID

end BrokerState

/-- Any number of requests, whose statements are executed in any order. -/
def concurrentBroker : System BrokerState BrokerEvent where
  initial state := state.OneEndpoint ∧ ∀ id, state.session id = none
  step before event after := before.step event = some after

/-! ## One statement -/

namespace Session

variable {faults : Faults} {store after : Store} {session later : Session}

theorem next_of_rejected {details : BindDetails} (rejected : details.accepted = none)
    (faults : Faults) (store : Store) :
    ∃ err, Broker.bind (some store) faults details = (some store, .error err) ∧
      next faults store (.arrived (.bind details)) = some (store, .returned (.error err)) := by
  cases loaded : loadParams details.rawParameters with
  | none => exact ⟨.loadingParams, by simp only [Broker.bind, loaded], by simp only [next, loaded]⟩
  | some params =>
      have refused := BindDetails.refused_of_rejected rejected loaded
      exact ⟨.notAPath, by simp only [Broker.bind, loaded, if_pos refused],
        by simp only [next, loaded, if_pos refused]⟩

theorem next_of_accepted {details : BindDetails} {params : BrokerParams}
    (accepted : details.accepted = some params) :
    next faults store (.arrived (.bind details)) =
      some (details.cleared faults store,
        if params.endpoint = [] then .returned (.ok ()) else .creates details params) := by
  rcases BindDetails.loaded_of_accepted accepted with ⟨loaded, unrefused⟩
  simp only [next, loaded, if_neg unrefused, BindDetails.cleared]
  split <;> rfl

theorem next_creates {details : BindDetails} {params : BrokerParams} :
    next faults store (.creates details params) =
      match Store.create faults (details.row params) store with
      | none => some (store, .returned (.error .creating))
      | some after => some (after, .returned (.ok ())) :=
  rfl

/-- The statements of a request, one after another, do what the request does. -/
theorem serve_eq_statements (faults : Faults) (store : Store) (request : BrokerRequest) :
    ∃ after later, next faults store (.arrived request) = some (after, later) ∧
      ((∃ result, later = .returned result ∧
          request.serve faults (some store) = (some after, result)) ∨
        ∃ last result, next faults after later = some (last, .returned result) ∧
          request.serve faults (some store) = (some last, result)) := by
  cases request with
  | unbind bindingID => exact ⟨_, _, rfl, Or.inl ⟨_, rfl, rfl⟩⟩
  | bind details =>
      cases accepted : details.accepted with
      | none =>
          rcases next_of_rejected accepted faults store with ⟨err, served, moves⟩
          exact ⟨_, _, moves, Or.inl ⟨_, rfl, served⟩⟩
      | some params =>
          refine ⟨_, _, next_of_accepted accepted, ?_⟩
          rw [BrokerRequest.serve, Broker.bind_of_accepted accepted]
          by_cases empty : params.endpoint = []
          · rw [if_pos empty, if_pos empty]
            exact Or.inl ⟨_, rfl, rfl⟩
          · rw [if_neg empty, if_neg empty, next_creates]
            right
            cases Store.create faults (details.row params) (details.cleared faults store) with
            | none => exact ⟨_, _, rfl, rfl⟩
            | some after => exact ⟨_, _, rfl, rfl⟩

/-- What a statement does. -/
inductive Next (faults : Faults) (store : Store) : Session → Store → Session → Prop where
  | rejected {details : BindDetails} {err : BrokerError} :
      Next faults store (.arrived (.bind details)) store (.returned (.error err))
  | cleared {details : BindDetails} :
      Next faults store (.arrived (.bind details)) (details.cleared faults store)
        (.returned (.ok ()))
  | creating {details : BindDetails} {params : BrokerParams} :
      Next faults store (.arrived (.bind details)) (details.cleared faults store)
        (.creates details params)
  | unbound {bindingID : GoString} :
      Next faults store (.arrived (.unbind bindingID))
        (Store.delete faults (fun row => row.guid == bindingID) store) (.returned (.ok ()))
  | refused {details : BindDetails} {params : BrokerParams}
      (refused : Store.create faults (details.row params) store = none) :
      Next faults store (.creates details params) store (.returned (.error .creating))
  | created {details : BindDetails} {params : BrokerParams} {after : Store}
      (created : Store.create faults (details.row params) store = some after) :
      Next faults store (.creates details params) after (.returned (.ok ()))

theorem next_of_moves (moves : session.next faults store = some (after, later)) :
    Next faults store session after later := by
  cases session with
  | returned result => cases moves
  | creates details params =>
      rw [next_creates] at moves
      cases created : Store.create faults (details.row params) store with
      | none =>
          rw [created] at moves
          cases moves
          exact .refused created
      | some created_ =>
          rw [created] at moves
          cases moves
          exact .created created
  | arrived request =>
      cases request with
      | unbind bindingID =>
          cases moves
          exact .unbound
      | bind details =>
          cases accepted : details.accepted with
          | none =>
              rcases next_of_rejected accepted faults store with ⟨err, _, rejected⟩
              rw [rejected] at moves
              cases moves
              exact .rejected
          | some params =>
              rw [next_of_accepted accepted] at moves
              by_cases empty : params.endpoint = []
              · rw [if_pos empty] at moves
                cases moves
                exact .cleared
              · rw [if_neg empty] at moves
                cases moves
                exact .creating

end Session

/-! ## One step -/

namespace BrokerState

variable {before after : BrokerState} {event : BrokerEvent}

/-- A step is the arrival of a request or a statement of one. -/
theorem step_cases (moves : before.step event = some after) :
    (∃ id request, event = .arrive id request ∧ before.session id = none ∧
      after = { before with
        session := Function.update before.session id (some (.arrived request)) }) ∨
    ∃ id faults session store next, event = .statement id faults ∧
      before.session id = some session ∧ Session.Next faults before.store session store next ∧
        after = ⟨store, Function.update before.session id (some next)⟩ := by
  cases event with
  | arrive id request =>
      left
      simp only [step] at moves
      split at moves
      · next unused =>
          cases moves
          exact ⟨id, request, rfl, unused, rfl⟩
      · cases moves
  | statement id faults =>
      right
      simp only [step, Option.bind_eq_bind, Option.bind_eq_some_iff, Option.pure_def,
        Option.some.injEq] at moves
      rcases moves with ⟨session, atSession, ⟨store, next⟩, moves, rfl⟩
      exact ⟨id, faults, session, store, next, rfl, atSession, Session.next_of_moves moves, rfl⟩

theorem OneEndpoint.of_subset (one : before.OneEndpoint)
    (subset : ∀ row ∈ after.store, row ∈ before.store) : after.OneEndpoint :=
  fun row rowMem other otherMem sameApp =>
    one row (subset row rowMem) other (subset other otherMem) sameApp

/-- The row of an accepted `INSERT` is the only one of its app exactly if there was none before. -/
theorem oneEndpoint_of_create {details : BindDetails} {params : BrokerParams} {faults : Faults}
    (one : before.OneEndpoint)
    (created : Store.create faults (details.row params) before.store = some after.store) :
    after.OneEndpoint ↔ ∀ row ∈ before.store, row.appGUID ≠ details.appGUID := by
  have fresh : ∀ row ∈ before.store, row ≠ details.row params := by
    rintro row rowMem rfl
    have accepted := Store.create_eq_none_iff.not.mp (by rw [created]; simp)
    exact accepted (Or.inr ⟨_, rowMem, rfl⟩)
  constructor
  · intro only row rowMem sameApp
    refine fresh row rowMem (only row ?_ (details.row params) ?_ sameApp)
    · exact (Store.mem_create created).mpr (Or.inr rowMem)
    · exact (Store.mem_create created).mpr (Or.inl rfl)
  · intro none row rowMem other otherMem sameApp
    rcases (Store.mem_create created).mp rowMem with rfl | rowHeld <;>
      rcases (Store.mem_create created).mp otherMem with rfl | otherHeld
    · rfl
    · exact absurd sameApp.symm (none other otherHeld)
    · exact absurd sameApp (none row rowHeld)
    · exact one row rowHeld other otherHeld sameApp

theorem oneEndpoint_step_iff (one : before.OneEndpoint) (moves : before.step event = some after) :
    after.OneEndpoint ↔ before.Undisturbed event := by
  rcases step_cases moves with ⟨id, request, rfl, _, rfl⟩ |
    ⟨id, faults, session, store, next, rfl, atSession, next_, rfl⟩
  · exact iff_of_true one trivial
  · have arrived (request : BrokerRequest) (isArrived : session = .arrived request) :
        before.Undisturbed (.statement id faults) := by
      intro details params creates
      rw [atSession, isArrived] at creates
      cases creates
    cases next_ with
    | rejected => exact iff_of_true (one.of_subset fun _ held => held) (arrived _ rfl)
    | cleared =>
        refine iff_of_true (one.of_subset fun row held => ?_) (arrived _ rfl)
        exact (BindDetails.mem_cleared.mp held).1
    | creating =>
        refine iff_of_true (one.of_subset fun row held => ?_) (arrived _ rfl)
        exact (BindDetails.mem_cleared.mp held).1
    | unbound =>
        refine iff_of_true (one.of_subset fun row held => ?_) (arrived _ rfl)
        exact (Store.mem_delete.mp held).1
    | refused refused =>
        refine iff_of_true (one.of_subset fun _ held => held) ?_
        intro details params creates
        rw [atSession, Option.some.injEq, Session.creates.injEq] at creates
        rcases creates with ⟨rfl, rfl⟩
        exact Or.inr (Store.create_eq_none_iff.mp refused)
    | @created details params _ created =>
        rw [oneEndpoint_of_create one created]
        have accepted := Store.create_eq_none_iff.not.mp (by rw [created]; simp)
        constructor
        · intro none otherDetails otherParams creates
          rw [atSession, Option.some.injEq, Session.creates.injEq] at creates
          rcases creates with ⟨rfl, rfl⟩
          exact Or.inl none
        · intro undisturbed
          exact (undisturbed details params atSession).resolve_right accepted

/-- Every app that a `Bind` is about to create a row for has no row, and no other such `Bind`. -/
structure Reserved (state : BrokerState) : Prop where
  cleared : ∀ id details params, state.session id = some (.creates details params) →
    ∀ row ∈ state.store, row.appGUID ≠ details.appGUID
  alone : ∀ id details params, state.session id = some (.creates details params) →
    ∀ other otherDetails otherParams,
      state.session other = some (.creates otherDetails otherParams) →
        otherDetails.appGUID = details.appGUID → other = id

theorem Reserved.undisturbed (reserved : before.Reserved) (event : BrokerEvent) :
    before.Undisturbed event := by
  cases event with
  | arrive id request => trivial
  | statement id faults =>
      exact fun details params creates => Or.inl (reserved.cleared id details params creates)

/-- The reservations are kept by a step that makes none and creates no row for another one. -/
theorem Reserved.update (reserved : before.Reserved) {id : Nat} {store : Store}
    {next : Option Session} (leaves : ∀ details params, next ≠ some (.creates details params))
    (cleared : ∀ other details params, other ≠ id →
      before.session other = some (.creates details params) →
        ∀ row ∈ store, row.appGUID ≠ details.appGUID) :
    Reserved ⟨store, Function.update before.session id next⟩ := by
  have earlier {other : Nat} {details : BindDetails} {params : BrokerParams}
      (creates : Function.update before.session id next other = some (.creates details params)) :
      other ≠ id ∧ before.session other = some (.creates details params) := by
    by_cases same : other = id
    · subst same
      rw [Function.update_self] at creates
      exact absurd creates (leaves details params)
    · rw [Function.update_of_ne same] at creates
      exact ⟨same, creates⟩
  constructor
  · intro other details params creates
    exact cleared other details params (earlier creates).1 (earlier creates).2
  · intro first details params creates second otherDetails otherParams otherCreates
    exact reserved.alone _ _ _ (earlier creates).2 _ _ _ (earlier otherCreates).2

/-- The `DELETE` of a `Bind` makes a reservation, if there is none of its app. -/
theorem Reserved.reserve (reserved : before.Reserved) {id : Nat} {faults : Faults}
    {details : BindDetails} (deletes : faults.delete = false)
    (others : ∀ other otherDetails params,
      before.session other = some (.creates otherDetails params) →
        otherDetails.appGUID ≠ details.appGUID) (params : BrokerParams) :
    Reserved ⟨details.cleared faults before.store,
      Function.update before.session id (some (.creates details params))⟩ := by
  have made {other : Nat} {otherDetails : BindDetails} {otherParams : BrokerParams}
      (creates : Function.update before.session id (some (.creates details params)) other =
        some (.creates otherDetails otherParams)) :
      (other = id ∧ otherDetails = details) ∨
        before.session other = some (.creates otherDetails otherParams) := by
    by_cases same : other = id
    · subst same
      rw [Function.update_self, Option.some.injEq, Session.creates.injEq] at creates
      exact Or.inl ⟨rfl, creates.1.symm⟩
    · rw [Function.update_of_ne same] at creates
      exact Or.inr creates
  constructor
  · intro other otherDetails otherParams creates row rowMem
    rcases BindDetails.mem_cleared.mp rowMem with ⟨held, fails | otherApp⟩
    · simp [deletes] at fails
    · rcases made creates with ⟨_, rfl⟩ | earlier
      · exact otherApp
      · exact reserved.cleared other otherDetails otherParams earlier row held
  · intro first firstDetails firstParams creates second secondDetails secondParams otherCreates
      sameApp
    rcases made creates with ⟨rfl, rfl⟩ | earlier <;>
      rcases made otherCreates with ⟨rfl, rfl⟩ | otherEarlier
    · rfl
    · exact absurd sameApp (others _ _ _ otherEarlier)
    · exact absurd sameApp.symm (others _ _ _ earlier)
    · exact reserved.alone _ _ _ earlier _ _ _ otherEarlier sameApp

theorem Reserved.step (reserved : before.Reserved) (apart : before.Apart event)
    (moves : before.step event = some after) : after.Reserved := by
  rcases step_cases moves with ⟨id, request, rfl, _, rfl⟩ |
    ⟨id, faults, session, store, next, rfl, atSession, next_, rfl⟩
  · exact reserved.update (by simp) fun other details params _ => reserved.cleared other _ params
  · cases next_ with
    | rejected =>
        exact reserved.update (by simp) fun other _ params _ => reserved.cleared other _ params
    | refused =>
        exact reserved.update (by simp) fun other _ params _ => reserved.cleared other _ params
    | cleared =>
        refine reserved.update (by simp) fun other _ params _ creates row rowMem => ?_
        exact reserved.cleared other _ params creates row (BindDetails.mem_cleared.mp rowMem).1
    | unbound =>
        refine reserved.update (by simp) fun other _ params _ creates row rowMem => ?_
        exact reserved.cleared other _ params creates row (Store.mem_delete.mp rowMem).1
    | @created details params _ created =>
        refine reserved.update (by simp) fun other _ otherParams ne creates row rowMem => ?_
        rcases (Store.mem_create created).mp rowMem with rfl | held
        · exact fun sameApp => ne (reserved.alone _ _ _ atSession _ _ _ creates sameApp.symm)
        · exact reserved.cleared other _ otherParams creates row held
    | @creating details params =>
        rcases apart details atSession with ⟨deletes, others⟩
        exact reserved.reserve deletes others params

/-! ## Whole runs -/

/-- Every state of a run has at most one endpoint for each app exactly if every `INSERT` of the run
finds no row of its app, or is refused. -/
theorem oneEndpoint_iff (execution : concurrentBroker.Execution) :
    (∀ state ∈ execution.states, state.OneEndpoint) ↔
      ∀ step ∈ execution.steps, step.1.Undisturbed step.2 :=
  execution.throughout_iff (fun _ starts => starts.1)
    fun _ _ _ one moves => oneEndpoint_step_iff one moves

/-- It is enough that two requests to bind one app never overlap and no deletion fails. -/
theorem undisturbed_of_apart (execution : concurrentBroker.Execution)
    (apart : ∀ step ∈ execution.steps, step.1.Apart step.2) :
    ∀ step ∈ execution.steps, step.1.Undisturbed step.2 := by
  have initially : ∀ state, concurrentBroker.initial state → Reserved state :=
    fun _ starts => ⟨by simp [starts.2], by simp [starts.2]⟩
  have reserved := execution.guardedInvariant initially
    (fun _ _ _ holds allowed moves => holds.step allowed moves) apart
  intro step stepMem
  refine (reserved step.1 ?_).undisturbed step.2
  exact List.mem_append_left _ (List.mem_map_of_mem stepMem)

end BrokerState

/-- Another binding of the same app, with another endpoint. -/
def otherBinding : BindDetails where
  bindingID := text "other"
  appGUID := text "app"
  rawParameters := text "\x7b\"endpoint\":\"/prometheus\"\x7d"
  bindingID_ne_nil := by decide

/-- Two requests to bind one app, of which both delete before one creates. -/
def overlappingBinds : List BrokerEvent :=
  [.arrive 0 (.bind sampleBinding), .arrive 1 (.bind otherBinding), .statement 0 {},
    .statement 1 {}, .statement 0 {}, .statement 1 {}]

/-- After two overlapping requests to bind one app, it has two endpoints. -/
theorem not_oneEndpoint_always :
    ¬∀ execution : concurrentBroker.Execution, ∀ state ∈ execution.states,
      state.OneEndpoint := by
  intro always
  let start : BrokerState := ⟨Table.empty, fun _ => none⟩
  have rows : (overlappingBinds.foldlM BrokerState.step start).map
      (fun state => state.store.rows) =
        some [⟨text "other", text "app", text "/prometheus"⟩,
          ⟨text "new", text "app", text "/metrics"⟩] := by
    decide
  rcases Option.map_eq_some_iff.mp rows with ⟨last, ran, stored⟩
  have starts : concurrentBroker.initial start :=
    ⟨fun row rowMem => absurd rowMem (Table.not_mem_empty row), fun _ => rfl⟩
  have one := System.holds_of_foldlM always starts ran fun _ _ _ moves => moves
  have same := one ⟨text "other", text "app", text "/prometheus"⟩ (by simp [Table.mem_def, stored])
    ⟨text "new", text "app", text "/metrics"⟩ (by simp [Table.mem_def, stored]) rfl
  exact absurd (congrArg AppEndpoint.guid same) (by decide)

end Promfetcher
