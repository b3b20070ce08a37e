import Promfetcher.Foundation.Json
import Promfetcher.Models.AppEndpoint

/-!
# The service broker

`Bind` and `Unbind` of `api/broker.go`. `Bind` deletes the rows of the app and then
creates one, without a transaction around the two statements; neither it nor
`Unbind` looks at the error of the deletion. The router of the vendored package
`brokerapi` calls them with a binding id that is a non-empty segment of the path.
-/

namespace Promfetcher

open Foundation

/-- `BrokerParams`: the parameters of a binding. -/
structure BrokerParams where
  endpoint : GoString := []
  deriving DecidableEq, Repr

/-- Storing one member of the parameters. -/
def BrokerParams.store (params : BrokerParams) (name : GoString) (value : Json) :
    Option BrokerParams :=
  if Json.selects name "endpoint" then do
    return { params with endpoint := ← value.storeString params.endpoint }
  else some params

/-- The arguments of `Bind` that it reads. -/
structure BindDetails where
  bindingID : GoString
  appGUID : GoString
  rawParameters : GoString
  bindingID_ne_nil : bindingID ≠ []

/-- The errors of `Bind`. -/
inductive BrokerError where
  /-- "no db set broker unusable" -/
  | noDB
  /-- "error when loading params: ", and the error of `json.Unmarshal` -/
  | loadingParams
  /-- "endpoint must be a path starting with /" -/
  | notAPath
  /-- "error when getting creating app entry in db: ", and the error of the database -/
  | creating
  deriving DecidableEq, Repr

/-- `json.Unmarshal` of the parameters. Its error does not count if there are none. -/
def loadParams (rawParameters : GoString) : Option BrokerParams :=
  match (Json.parse rawParameters).bind (Json.storeStruct BrokerParams.store {}) with
  | some params => some params
  | none => if rawParameters = [] then some {} else none

namespace Broker

/-- `Broker.Bind`: the database afterwards, and the error. -/
def bind (db : Option Store) (faults : Faults) (details : BindDetails) :
    Option Store × Except BrokerError Unit :=
  match db with
  | none => (none, .error .noDB)
  | some store =>
      match loadParams details.rawParameters with
      | none => (some store, .error .loadingParams)
      | some params =>
          if params.endpoint ≠ [] ∧ params.endpoint.head? ≠ some slash then
            (some store, .error .notAPath)
          else
            let store := Store.delete faults (fun row => row.appGUID == details.appGUID) store
            if params.endpoint = [] then (some store, .ok ())
            else
              match Store.create faults
                  ⟨details.bindingID, details.appGUID, params.endpoint⟩ store with
              | none => (some store, .error .creating)
              | some store => (some store, .ok ())

/-- `Broker.Unbind`: the database afterwards, and the error. -/
def unbind (db : Option Store) (faults : Faults) (bindingID : GoString) :
    Option Store × Except BrokerError Unit :=
  match db with
  | none => (none, .ok ())
  | some store => (some (Store.delete faults (fun row => row.guid == bindingID) store), .ok ())

end Broker

/-- A request to the broker that touches the store. -/
inductive BrokerRequest where
  | bind (details : BindDetails)
  | unbind (bindingID : GoString)

/-- What becomes of the store, and what the broker answers. -/
def BrokerRequest.serve (faults : Faults) (db : Option Store) :
    BrokerRequest → Option Store × Except BrokerError Unit
  | .bind details => Broker.bind db faults details
  | .unbind bindingID => Broker.unbind db faults bindingID

/-! ## One request -/

namespace BindDetails

variable (details : BindDetails)

/-- The parameters of a request that is not rejected. -/
def accepted : Option BrokerParams :=
  (loadParams details.rawParameters).filter fun params =>
    params.endpoint = [] ∨ params.endpoint.head? = some slash

/-- The row that a binding with the parameters stores. -/
def row (params : BrokerParams) : AppEndpoint :=
  ⟨details.bindingID, details.appGUID, params.endpoint⟩

/-- The table after the rows of the app have been deleted, if that did not fail. -/
def cleared (faults : Faults) (store : Store) : Store :=
  Store.delete faults (fun row => row.appGUID == details.appGUID) store

variable {details}

theorem refused_of_rejected (rejected : details.accepted = none) {params : BrokerParams}
    (loaded : loadParams details.rawParameters = some params) :
    params.endpoint ≠ [] ∧ params.endpoint.head? ≠ some slash := by
  rw [accepted, loaded, Option.filter_some_eq_none] at rejected
  simpa using rejected

theorem loaded_of_accepted {params : BrokerParams} (accepted : details.accepted = some params) :
    loadParams details.rawParameters = some params ∧
      ¬(params.endpoint ≠ [] ∧ params.endpoint.head? ≠ some slash) := by
  rcases Option.filter_eq_some_iff.mp accepted with ⟨loaded, isPath⟩
  exact ⟨loaded, by simpa [or_iff_not_imp_left] using isPath⟩

theorem mem_cleared {faults : Faults} {store : Store} {row : AppEndpoint} :
    row ∈ details.cleared faults store ↔
      row ∈ store ∧ (faults.delete = true ∨ row.appGUID ≠ details.appGUID) := by
  simp [cleared, Store.mem_delete]

theorem cleared_eq_self_iff {faults : Faults} {store : Store} :
    details.cleared faults store = store ↔
      faults.delete = true ∨ ∀ row ∈ store, row.appGUID ≠ details.appGUID := by
  simp [cleared, Store.delete_eq_self_iff]

theorem cleared_spec {faults : Faults} {store : Store} :
    (∀ row ∈ details.cleared faults store, row.appGUID ≠ details.appGUID) ↔
      faults.delete = false ∨ ∀ row ∈ store, row.appGUID ≠ details.appGUID := by
  constructor
  · intro none
    refine or_iff_not_imp_left.mpr fun fails row rowMem => none row ?_
    exact mem_cleared.mpr ⟨rowMem, Or.inl (by simpa using fails)⟩
  · rintro (deletes | none) row rowMem
    · simpa [deletes] using (mem_cleared.mp rowMem).2
    · exact none row (mem_cleared.mp rowMem).1

theorem create_cleared_eq_none_iff {faults : Faults} {store : Store} {params : BrokerParams} :
    Store.create faults (details.row params) (details.cleared faults store) = none ↔
      faults.create = true ∨ ∃ row ∈ store, row.guid = details.bindingID ∧
        (faults.delete = true ∨ row.appGUID ≠ details.appGUID) := by
  rw [Store.create_eq_none_iff]
  simp only [mem_cleared, row, and_assoc, and_comm]

end BindDetails

namespace Broker

theorem bind_of_rejected {details : BindDetails} (rejected : details.accepted = none)
    (db : Option Store) (faults : Faults) :
    ∃ err, bind db faults details = (db, .error err) := by
  cases db with
  | none => exact ⟨.noDB, rfl⟩
  | some store =>
      cases loaded : loadParams details.rawParameters with
      | none => exact ⟨.loadingParams, by simp only [bind, loaded]⟩
      | some params =>
          have refused := BindDetails.refused_of_rejected rejected loaded
          exact ⟨.notAPath, by simp only [bind, loaded, if_pos refused]⟩

theorem bind_of_accepted {details : BindDetails} {params : BrokerParams}
    (accepted : details.accepted = some params) (store : Store) (faults : Faults) :
    bind (some store) faults details =
      if params.endpoint = [] then (some (details.cleared faults store), .ok ())
      else
        match Store.create faults (details.row params) (details.cleared faults store) with
        | none => (some (details.cleared faults store), .error .creating)
        | some after => (some after, .ok ()) := by
  rcases BindDetails.loaded_of_accepted accepted with ⟨loaded, unrefused⟩
  simp only [bind, loaded, if_neg unrefused]
  rfl

end Broker

/-! ## All or nothing -/

/-- There is a database, and it holds the row. -/
def Holds (db : Option Store) (row : AppEndpoint) : Prop :=
  ∃ store, db = some store ∧ row ∈ store

namespace BrokerRequest

/-- The rows that a request is not about: those of other apps, or of other bindings. -/
def Spares : BrokerRequest → AppEndpoint → Prop
  | .bind details, row => row.appGUID ≠ details.appGUID
  | .unbind bindingID, row => row.guid ≠ bindingID

/-- The rows that a successful request leaves, among those that it is about. -/
def Leaves : BrokerRequest → AppEndpoint → Prop
  | .bind details, row => ∃ params, loadParams details.rawParameters = some params ∧
      params.endpoint ≠ [] ∧ row = details.row params
  | .unbind _, _ => False

/-- An error means that nothing has changed, success that everything has been done, and rows the
request is not about are never touched. -/
structure AllOrNothing (db : Option Store) (faults : Faults) (request : BrokerRequest) :
    Prop where
  nothing : ∀ err, (request.serve faults db).2 = .error err → (request.serve faults db).1 = db
  all : (request.serve faults db).2 = .ok () → ∀ row, ¬request.Spares row →
    (Holds (request.serve faults db).1 row ↔ request.Leaves row)
  spared : ∀ row, request.Spares row → (Holds (request.serve faults db).1 row ↔ Holds db row)

/-- The failures and the rows with which a request is all or nothing. -/
def Consistent (db : Option Store) (faults : Faults) : BrokerRequest → Prop
  | .bind details => ∀ store, db = some store → ∀ params, details.accepted = some params →
      (∀ row ∈ store, row.appGUID ≠ details.appGUID) ∨
      (params.endpoint = [] ∧ faults.delete = false) ∨
      (params.endpoint ≠ [] ∧ faults.delete = true ∧
        (faults.create = true ∨ ∃ row ∈ store, row.guid = details.bindingID)) ∨
      (params.endpoint ≠ [] ∧ faults.delete = false ∧ faults.create = false ∧
        ∀ row ∈ store, row.guid = details.bindingID → row.appGUID = details.appGUID)
  | .unbind bindingID => ∀ store, db = some store →
      faults.delete = false ∨ ∀ row ∈ store, row.guid ≠ bindingID

@[simp]
theorem holds_some {store : Store} {row : AppEndpoint} : Holds (some store) row ↔ row ∈ store := by
  simp [Holds]

/-- The rows that a request is not about are never touched. -/
theorem holds_serve_of_spares {request : BrokerRequest} {row : AppEndpoint}
    (spares : request.Spares row) (db : Option Store) (faults : Faults) :
    Holds (request.serve faults db).1 row ↔ Holds db row := by
  cases db with
  | none => cases request <;> exact Iff.rfl
  | some store =>
      cases request with
      | unbind bindingID =>
          have other : row.guid ≠ bindingID := spares
          simp [serve, Broker.unbind, Store.mem_delete, other]
      | bind details =>
          have other : row.appGUID ≠ details.appGUID := spares
          have kept : row ∈ details.cleared faults store ↔ row ∈ store := by
            simp [BindDetails.mem_cleared, other]
          cases accepted : details.accepted with
          | none =>
              rcases Broker.bind_of_rejected accepted (some store) faults with ⟨err, served⟩
              rw [serve, served]
          | some params =>
              rw [serve, Broker.bind_of_accepted accepted]
              split
              · simpa only [holds_some] using kept
              · split
                · simpa only [holds_some] using kept
                · next after created =>
                    have apart : row ≠ details.row params := fun same => other (by rw [same]; rfl)
                    rw [holds_some, holds_some, Store.mem_create created, or_iff_right apart, kept]

theorem exists_serve_eq_some (request : BrokerRequest) (faults : Faults) (store : Store) :
    ∃ after, (request.serve faults (some store)).1 = some after := by
  cases request with
  | unbind bindingID => exact ⟨_, rfl⟩
  | bind details =>
      cases accepted : details.accepted with
      | none =>
          rcases Broker.bind_of_rejected accepted (some store) faults with ⟨err, served⟩
          exact ⟨store, by rw [serve, served]⟩
      | some params =>
          rw [serve, Broker.bind_of_accepted accepted]
          split
          · exact ⟨_, rfl⟩
          · split <;> exact ⟨_, rfl⟩

theorem allOrNothing_of_error {db after : Option Store} {faults : Faults}
    {request : BrokerRequest} {err : BrokerError}
    (served : request.serve faults db = (after, .error err)) :
    request.AllOrNothing db faults ↔ after = db := by
  constructor
  · intro allOrNothing
    simpa only [served] using allOrNothing.nothing err (by rw [served])
  · intro unchanged
    refine ⟨?_, ?_, fun row spares => holds_serve_of_spares spares db faults⟩
    · rw [served]
      exact fun _ _ => unchanged
    · rw [served]
      rintro ⟨⟩

theorem allOrNothing_of_ok {db after : Option Store} {faults : Faults} {request : BrokerRequest}
    (served : request.serve faults db = (after, .ok ())) :
    request.AllOrNothing db faults ↔
      ∀ row, ¬request.Spares row → (Holds after row ↔ request.Leaves row) := by
  constructor
  · intro allOrNothing
    simpa only [served] using allOrNothing.all (by rw [served])
  · intro all
    refine ⟨?_, ?_, fun row spares => holds_serve_of_spares spares db faults⟩
    · rw [served]
      rintro err ⟨⟩
    · rw [served]
      exact fun _ => all

theorem allOrNothing_unbind (store : Store) (faults : Faults) (bindingID : GoString) :
    (unbind bindingID).AllOrNothing (some store) faults ↔
      faults.delete = false ∨ ∀ row ∈ store, row.guid ≠ bindingID := by
  rw [allOrNothing_of_ok rfl]
  simp only [holds_some, Store.mem_delete, Spares, Leaves, not_not, iff_false]
  constructor
  · intro all
    refine or_iff_not_imp_left.mpr fun fails row rowMem isBinding => ?_
    exact all row isBinding ⟨rowMem, Or.inl (by simpa using fails)⟩
  · rintro condition row isBinding ⟨rowMem, kept⟩
    rcases condition with deletes | none
    · simp [deletes, isBinding] at kept
    · exact none row rowMem isBinding

section

variable {details : BindDetails} {params : BrokerParams} {store : Store} {faults : Faults}

theorem allOrNothing_bind_nil (accepted : details.accepted = some params)
    (empty : params.endpoint = []) :
    (bind details).AllOrNothing (some store) faults ↔
      faults.delete = false ∨ ∀ row ∈ store, row.appGUID ≠ details.appGUID := by
  have served : (bind details).serve faults (some store) =
      (some (details.cleared faults store), .ok ()) := by
    rw [serve, Broker.bind_of_accepted accepted, if_pos empty]
  rw [allOrNothing_of_ok served, ← BindDetails.cleared_spec]
  have loaded := (BindDetails.loaded_of_accepted accepted).1
  have leaves (row : AppEndpoint) : ¬(bind details).Leaves row := by
    rintro ⟨other, otherLoaded, some, _⟩
    rw [loaded, Option.some.injEq] at otherLoaded
    exact some (otherLoaded ▸ empty)
  simp only [holds_some, leaves, iff_false, Spares, not_not]
  exact forall_congr' fun row => imp_not_comm

theorem allOrNothing_bind_error (accepted : details.accepted = some params)
    (some_endpoint : params.endpoint ≠ [])
    (fails : Store.create faults (details.row params) (details.cleared faults store) = none) :
    (bind details).AllOrNothing (some store) faults ↔
      faults.delete = true ∨ ∀ row ∈ store, row.appGUID ≠ details.appGUID := by
  have served : (bind details).serve faults (some store) =
      (some (details.cleared faults store), .error .creating) := by
    simp only [serve, Broker.bind_of_accepted accepted, if_neg some_endpoint, fails]
  rw [allOrNothing_of_error served, Option.some.injEq,
    BindDetails.cleared_eq_self_iff]

theorem allOrNothing_bind_ok (accepted : details.accepted = some params)
    (some_endpoint : params.endpoint ≠ []) {after : Store}
    (created : Store.create faults (details.row params) (details.cleared faults store) =
      some after) :
    (bind details).AllOrNothing (some store) faults ↔
      faults.delete = false ∨ ∀ row ∈ store, row.appGUID ≠ details.appGUID := by
  have served : (bind details).serve faults (some store) = (some after, .ok ()) := by
    simp only [serve, Broker.bind_of_accepted accepted, if_neg some_endpoint, created]
  have loaded := (BindDetails.loaded_of_accepted accepted).1
  have leaves (row : AppEndpoint) : (bind details).Leaves row ↔ row = details.row params := by
    simp [Leaves, loaded, some_endpoint]
  rw [allOrNothing_of_ok served, ← BindDetails.cleared_spec]
  simp only [holds_some, leaves, Spares, not_not, Store.mem_create created]
  constructor
  · intro only row rowMem ofApp
    have same := (only row ofApp).mp (Or.inr rowMem)
    have fresh := Store.create_eq_none_iff.not.mp (by rw [created]; simp)
    exact fresh (Or.inr ⟨row, rowMem, by rw [same]⟩)
  · intro none row ofApp
    exact or_iff_left fun rowMem => none row rowMem ofApp

end

theorem allOrNothing_of_rejected {details : BindDetails} (rejected : details.accepted = none)
    (db : Option Store) (faults : Faults) : (bind details).AllOrNothing db faults := by
  rcases Broker.bind_of_rejected rejected db faults with ⟨err, served⟩
  have served : (bind details).serve faults db = (db, .error err) := served
  exact (allOrNothing_of_error served).mpr rfl

/-- An accepted request is all or nothing if there is nothing to delete, if deletion and creation
succeed, or if both fail. -/
theorem allOrNothing_bind {details : BindDetails} {params : BrokerParams}
    (accepted : details.accepted = some params) (store : Store) (faults : Faults) :
    (bind details).AllOrNothing (some store) faults ↔
      (∀ row ∈ store, row.appGUID ≠ details.appGUID) ∨
      (params.endpoint = [] ∧ faults.delete = false) ∨
      (params.endpoint ≠ [] ∧ faults.delete = true ∧
        (faults.create = true ∨ ∃ row ∈ store, row.guid = details.bindingID)) ∨
      (params.endpoint ≠ [] ∧ faults.delete = false ∧ faults.create = false ∧
        ∀ row ∈ store, row.guid = details.bindingID → row.appGUID = details.appGUID) := by
  by_cases empty : params.endpoint = []
  · rw [allOrNothing_bind_nil accepted empty]
    simp [empty, or_comm]
  · cases created : Store.create faults (details.row params) (details.cleared faults store) with
    | none =>
        have conflict := BindDetails.create_cleared_eq_none_iff.mp created
        rw [allOrNothing_bind_error accepted empty created]
        constructor
        · rintro (fails | none)
          · refine Or.inr (Or.inr (Or.inl ⟨empty, fails, conflict.imp_right ?_⟩))
            rintro ⟨row, rowMem, taken, _⟩
            exact ⟨row, rowMem, taken⟩
          · exact Or.inl none
        · rintro (none | ⟨isEmpty, _⟩ | ⟨_, fails, _⟩ | ⟨_, deletes, creates, own⟩)
          · exact Or.inr none
          · exact absurd isEmpty empty
          · exact Or.inl fails
          · rcases conflict with fails | ⟨row, rowMem, taken, fails | other⟩
            · simp [creates] at fails
            · simp [deletes] at fails
            · exact absurd (own row rowMem taken) other
    | some after =>
        have conflict := BindDetails.create_cleared_eq_none_iff.not.mp (by rw [created]; simp)
        rw [allOrNothing_bind_ok accepted empty created]
        constructor
        · rintro (deletes | none)
          · refine Or.inr (Or.inr (Or.inr ⟨empty, deletes, ?_, fun row rowMem taken => ?_⟩))
            · simpa using fun fails => conflict (Or.inl fails)
            · by_contra other
              exact conflict (Or.inr ⟨row, rowMem, taken, Or.inr other⟩)
          · exact Or.inl none
        · rintro (none | ⟨isEmpty, _⟩ | ⟨_, fails, taken⟩ | ⟨_, deletes, _⟩)
          · exact Or.inr none
          · exact absurd isEmpty empty
          · refine absurd (taken.imp_right ?_) conflict
            rintro ⟨row, rowMem, same⟩
            exact ⟨row, rowMem, same, Or.inl fails⟩
          · exact Or.inl deletes

/-- A request is all or nothing exactly with these failures and rows. -/
theorem allOrNothing_iff (db : Option Store) (faults : Faults) (request : BrokerRequest) :
    request.AllOrNothing db faults ↔ request.Consistent db faults := by
  cases request with
  | unbind bindingID =>
      cases db with
      | none =>
          refine iff_of_true ?_ (by rintro store ⟨⟩)
          apply (allOrNothing_of_ok rfl).mpr
          intro row _
          simp [Holds, Leaves]
      | some store =>
          rw [allOrNothing_unbind]
          simp [Consistent]
  | bind details =>
      cases db with
      | none =>
          refine iff_of_true ?_ (by rintro store ⟨⟩)
          exact (allOrNothing_of_error rfl).mpr rfl
      | some store =>
          cases accepted : details.accepted with
          | none =>
              refine iff_of_true (allOrNothing_of_rejected accepted _ _) ?_
              rintro _ _ params isAccepted
              rw [accepted] at isAccepted
              cases isAccepted
          | some params =>
              rw [allOrNothing_bind accepted]
              simp [Consistent, accepted]

end BrokerRequest

/-- A binding with an endpoint. -/
def sampleBinding : BindDetails where
  bindingID := text "new"
  appGUID := text "app"
  rawParameters := text "\x7b\"endpoint\":\"/metrics\"\x7d"
  bindingID_ne_nil := by decide

/-- A store with an earlier binding of the same app. -/
def sampleStore : Store where
  rows := [⟨text "old", text "app", text "/prometheus"⟩]
  nodup := List.nodup_singleton _

/-- A binding whose deletion fails succeeds, and leaves two endpoints of the app. -/
theorem not_allOrNothing_always :
    ¬∀ db faults (request : BrokerRequest), request.AllOrNothing db faults := by
  intro always
  let faults : Faults := { delete := true }
  have allOrNothing := always (some sampleStore) faults (.bind sampleBinding)
  have succeeds :
      (BrokerRequest.serve faults (some sampleStore) (.bind sampleBinding)).2 = .ok () := by
    decide
  have kept : Holds (BrokerRequest.serve faults (some sampleStore) (.bind sampleBinding)).1
      ⟨text "old", text "app", text "/prometheus"⟩ :=
    ⟨_, rfl, List.Mem.tail _ (List.Mem.head _)⟩
  rcases (allOrNothing.all succeeds _ (by simp [BrokerRequest.Spares, sampleBinding])).mp kept with
    ⟨params, _, _, same⟩
  have old : text "old" = text "new" := congrArg AppEndpoint.guid same
  exact absurd old (by decide)

end Promfetcher
