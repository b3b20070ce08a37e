import Promfetcher.Scrapers.LatestBinding

/-!
# Retrieving bindings

The catalog of the broker says that bindings can be retrieved. `GetBinding` answers
from the table of endpoints, which has no row for a binding without an endpoint and
loses the row of a binding when its app is bound again.

Some of the deletions may fail, since `Bind` and `Unbind` succeed all the same.
-/

namespace Promfetcher

open Foundation

/-- The errors of `GetBinding`. -/
inductive GetBindingError where
  /-- "no db set broker unusable" -/
  | noDB
  /-- "error when getting app in db: ", and the error of the database -/
  | getting
  deriving DecidableEq, Repr

/-- The credentials of a binding. -/
abbrev Credentials := AList fun _ : GoString => GoString

namespace Broker

/-- `Broker.GetBinding`. -/
def getBinding (db : Option Store) (faults : Faults) (bindingID : GoString) :
    Except GetBindingError Credentials :=
  match db with
  | none => .error .noDB
  | some store =>
      match Store.first faults (fun row => row.guid == bindingID) store with
      | none => .error .getting
      | some appEndpoint =>
          -- `First` returns an error if there is no row, so that this is never the case.
          if appEndpoint.guid = [] then .ok ∅
          else .ok (AList.singleton (text "endpoint") appEndpoint.endpoint)

end Broker

/-- A request, and the statements of it that the database refuses. -/
structure Served where
  request : BrokerRequest
  faults : Faults := {}

namespace Served

/-- The database after these requests, from an empty table. -/
def serveAll (served : List Served) : Option Store :=
  served.foldl (fun db each => (each.request.serve each.faults db).1) (some Table.empty)

/-- The request that was served makes the row. -/
def Makes (served : Served) (row : AppEndpoint) : Prop :=
  served.request.Makes row

/-- The request deletes the row, and its deletion does not fail. -/
def Ends (served : Served) (row : AppEndpoint) : Prop :=
  served.faults.delete = false ∧ served.request.Ends row

/-- The requests that follow the one to bind. -/
def BoundBefore (served : List Served) (details : BindDetails) (after : List Served) : Prop :=
  ∃ before faults, served = before ++ ⟨.bind details, faults⟩ :: after

/-- The binding has been bound, and not unbound since. -/
def Current (served : List Served) (details : BindDetails) : Prop :=
  ∃ after, BoundBefore served details after ∧
    ∀ later ∈ after, later.request ≠ .unbind details.bindingID

/-- The credentials of a binding that was given these parameters. -/
def credentials (params : BrokerParams) : Credentials :=
  if params.endpoint = [] then ∅ else AList.singleton (text "endpoint") params.endpoint

/-- `GetBinding` returns what the current binding with this id was given, or else an error. -/
structure Reports (served : List Served) (bindingID : GoString) : Prop where
  current : ∀ details params, Current served details → details.bindingID = bindingID →
    loadParams details.rawParameters = some params →
      Broker.getBinding (serveAll served) {} bindingID = .ok (credentials params)
  other : (∀ details, Current served details → details.bindingID ≠ bindingID) →
    ∃ err, Broker.getBinding (serveAll served) {} bindingID = .error err

/-- If the binding is current, it was given an endpoint, and its app has not been bound again since,
unless the deletion failed. If it has been unbound, its row has been deleted. -/
structure Retrievable (served : List Served) (bindingID : GoString) : Prop where
  current : ∀ details after, BoundBefore served details after → details.bindingID = bindingID →
    (∀ later ∈ after, later.request ≠ .unbind bindingID) →
      (∃ params, loadParams details.rawParameters = some params ∧ params.endpoint ≠ []) ∧
        ∀ later ∈ after, ∀ other, later.request = .bind other →
          other.appGUID = details.appGUID → later.faults.delete = true
  unbound : ∀ details after, BoundBefore served details after → details.bindingID = bindingID →
    (∃ later ∈ after, later.request = .unbind bindingID) →
      ∀ params, loadParams details.rawParameters = some params → params.endpoint ≠ [] →
        ∃ later ∈ after, later.Ends (details.row params)

end Served

/-- Successful requests, of which no two bind the same binding id. -/
structure BindingHistory where
  served : List Served
  succeed : ∀ before each after, served = before ++ each :: after →
    (each.request.serve each.faults (Served.serveAll before)).2 = .ok ()
  distinct : served.Pairwise fun first second => ∀ details other,
    first.request = .bind details → second.request = .bind other →
      details.bindingID ≠ other.bindingID

/-! ## The table -/

namespace Served

theorem serveAll_eq_some (served : List Served) : ∃ store, serveAll served = some store := by
  unfold serveAll
  generalize (Table.empty : Store) = start
  induction served generalizing start with
  | nil => exact ⟨start, rfl⟩
  | cons each served inductionHypothesis =>
      rcases each.request.exists_serve_eq_some each.faults start with ⟨after, stored⟩
      rw [List.foldl_cons, stored]
      exact inductionHypothesis after

theorem accepted_of_ok {details : BindDetails} {faults : Faults} {db : Option Store}
    (ok : ((BrokerRequest.bind details).serve faults db).2 = .ok ()) :
    ∃ params, details.accepted = some params := by
  cases accepted : details.accepted with
  | some params => exact ⟨params, rfl⟩
  | none =>
      rcases Broker.bind_of_rejected accepted db faults with ⟨err, served⟩
      rw [BrokerRequest.serve, served] at ok
      cases ok

/-- What a successful request leaves. -/
theorem holds_serve_of_ok {each : Served} {store : Store}
    (ok : (each.request.serve each.faults (some store)).2 = .ok ()) (row : AppEndpoint) :
    Holds (each.request.serve each.faults (some store)).1 row ↔
      each.Makes row ∨ Holds (some store) row ∧ ¬each.Ends row := by
  rcases each with ⟨request, faults⟩
  cases request with
  | unbind bindingID =>
      simp only [BrokerRequest.serve, Broker.unbind, BrokerRequest.holds_some, Store.mem_delete,
        Makes, Ends, BrokerRequest.Makes, BrokerRequest.Ends]
      cases faults.delete <;> simp
  | bind details =>
      rcases accepted_of_ok ok with ⟨params, accepted⟩
      have cleared : row ∈ details.cleared faults store ↔
          row ∈ store ∧ ¬(faults.delete = false ∧ row.appGUID = details.appGUID) := by
        rw [BindDetails.mem_cleared]
        cases faults.delete <;> simp
      rw [BrokerRequest.serve, Broker.bind_of_accepted accepted] at ok ⊢
      simp only [Makes, Ends, BrokerRequest.Makes, BrokerRequest.Ends, accepted,
        Option.some.injEq, Option.isSome_some, true_and, exists_eq_left',
        BrokerRequest.holds_some]
      split at ok
      · next empty =>
          rw [if_pos empty, BrokerRequest.holds_some, cleared]
          simp [empty]
      · next some =>
          rw [if_neg some]
          split at ok
          · cases ok
          · next created =>
              simp only [created, BrokerRequest.holds_some, Store.mem_create created, cleared]
              simp [some]

/-! ## The answer -/

variable {served : List Served} {bindingID : GoString}

theorem getBinding_of_mem {store : Store} {row : AppEndpoint} (rowMem : row ∈ store)
    (guid : row.guid = bindingID) (nonempty : bindingID ≠ []) :
    Broker.getBinding (some store) {} bindingID =
      .ok (AList.singleton (text "endpoint") row.endpoint) := by
  have found : Store.first {} (fun row => row.guid == bindingID) store = some row := by
    rw [Store.first, if_neg (by simp)]
    exact Table.first_key_eq_some_iff.mpr ⟨rowMem, guid⟩
  simp only [Broker.getBinding, found]
  rw [if_neg (guid ▸ nonempty)]

theorem getBinding_of_not_mem {store : Store} (none : ∀ row ∈ store, row.guid ≠ bindingID) :
    Broker.getBinding (some store) {} bindingID = .error .getting := by
  have missing : Store.first {} (fun row => row.guid == bindingID) store = Option.none := by
    apply Table.first_eq_none_iff.mpr
    intro row rowMem
    simpa using none row rowMem
  simp only [Broker.getBinding, missing]

end Served

/-! ## Histories -/

namespace BindingHistory

open Served

variable (history : BindingHistory) {details other : BindDetails} {after later : List Served}

theorem accepted (bound : BoundBefore history.served details after) :
    ∃ params, details.accepted = some params := by
  rcases bound with ⟨before, faults, split⟩
  exact accepted_of_ok (history.succeed _ _ _ split)

theorem accepted_of_mem (bound : BoundBefore history.served details after) {each : Served}
    (eachMem : each ∈ after) (isBind : each.request = .bind other) :
    other.accepted.isSome := by
  rcases bound with ⟨before, faults, split⟩
  rcases List.append_of_mem eachMem with ⟨first, second, rfl⟩
  have ok := history.succeed (before ++ ⟨.bind details, faults⟩ :: first) each second
    (by rw [split, List.append_assoc, List.cons_append])
  rw [isBind] at ok
  rcases accepted_of_ok ok with ⟨params, accepted⟩
  rw [accepted]
  rfl

/-- A binding id is bound once. -/
theorem eq_of_boundBefore (bound : BoundBefore history.served details after)
    (otherBound : BoundBefore history.served other later)
    (same : details.bindingID = other.bindingID) : details = other ∧ after = later := by
  have distinct := history.distinct
  rcases bound with ⟨before, faults, split⟩
  rcases otherBound with ⟨otherBefore, otherFaults, otherSplit⟩
  have apart {first second : BindDetails} {firstFaults secondFaults : Faults}
      {start rest : List Served}
      (split : history.served = start ++ ⟨.bind first, firstFaults⟩ :: rest)
      (secondMem : ⟨.bind second, secondFaults⟩ ∈ rest) :
      first.bindingID ≠ second.bindingID := by
    rw [split, List.pairwise_append, List.pairwise_cons] at distinct
    exact distinct.2.1.1 _ secondMem first second rfl rfl
  rcases eq_or_mem_of_splits (split.symm.trans otherSplit) with
    ⟨request, rest⟩ | isLater | isEarlier
  · cases request
    exact ⟨rfl, rest⟩
  · exact absurd same (apart split isLater)
  · exact absurd same.symm (apart otherSplit isEarlier)

theorem holds_serveAll (row : AppEndpoint) :
    Holds (serveAll history.served) row ↔ Live Makes Ends history.served row := by
  apply mem_foldl_iff_live
  · simp [Holds]
  · rintro before each ⟨after, split⟩ _
    rcases serveAll_eq_some before with ⟨store, reached⟩
    change ∀ row, Holds (each.request.serve each.faults (serveAll before)).1 row ↔
      each.Makes row ∨ Holds (serveAll before) row ∧ ¬each.Ends row
    have ok := history.succeed before each after (by rw [← split, List.append_assoc]; rfl)
    rw [reached] at ok ⊢
    exact holds_serve_of_ok ok

/-- A row is in the table if the binding has been given an endpoint and no deletion has ended the
row. -/
theorem holds_iff {row : AppEndpoint} : Holds (serveAll history.served) row ↔
    ∃ details after params, BoundBefore history.served details after ∧
      details.accepted = some params ∧ params.endpoint ≠ [] ∧ row = details.row params ∧
        ∀ later ∈ after, ¬later.Ends row := by
  rw [holds_serveAll]
  constructor
  · rintro ⟨before, ⟨request, faults⟩, after, split, makes, kept⟩
    cases request with
    | unbind bindingID => exact absurd makes id
    | bind details =>
        rcases makes with ⟨params, accepted, some, made⟩
        exact ⟨details, after, params, ⟨before, faults, split⟩, accepted, some, made, kept⟩
  · rintro ⟨details, after, params, ⟨before, faults, split⟩, accepted, some, made, kept⟩
    exact ⟨before, _, after, split, ⟨params, accepted, some, made⟩, kept⟩

section

variable {params : BrokerParams}

theorem accepted_of_loaded (bound : BoundBefore history.served details after)
    (loaded : loadParams details.rawParameters = some params) :
    details.accepted = some params := by
  rcases history.accepted bound with ⟨accepted, isAccepted⟩
  rwa [← loaded, (BindDetails.loaded_of_accepted isAccepted).1]

theorem holds_row_iff (bound : BoundBefore history.served details after)
    (accepted : details.accepted = some params) :
    Holds (serveAll history.served) (details.row params) ↔
      params.endpoint ≠ [] ∧ ∀ later ∈ after, ¬later.Ends (details.row params) := by
  rw [holds_iff]
  constructor
  · rintro ⟨maker, later, made, makerBound, makerAccepted, given, same, unended⟩
    rcases history.eq_of_boundBefore makerBound bound (congrArg AppEndpoint.guid same.symm) with
      ⟨rfl, rfl⟩
    rw [accepted, Option.some.injEq] at makerAccepted
    subst makerAccepted
    exact ⟨given, unended⟩
  · rintro ⟨given, unended⟩
    exact ⟨details, after, params, bound, accepted, given, rfl, unended⟩

theorem getBinding_of_holds (held : Holds (serveAll history.served) (details.row params)) :
    Broker.getBinding (serveAll history.served) {} details.bindingID =
      .ok (AList.singleton (text "endpoint") params.endpoint) := by
  rcases held with ⟨store, reached, stored⟩
  rw [reached]
  exact getBinding_of_mem stored rfl details.bindingID_ne_nil

/-- Without a row of the id there is no answer. -/
theorem getBinding_of_not_holds {bindingID : GoString}
    (lost : ∀ row, Holds (serveAll history.served) row → row.guid ≠ bindingID) :
    Broker.getBinding (serveAll history.served) {} bindingID = .error .getting := by
  rcases serveAll_eq_some history.served with ⟨store, reached⟩
  rw [reached]
  exact getBinding_of_not_mem fun row rowMem => lost row ⟨store, reached, rowMem⟩

/-- The row of a binding id is the row of the request that bound it. -/
theorem eq_row_of_holds (bound : BoundBefore history.served details after)
    (accepted : details.accepted = some params) {row : AppEndpoint}
    (held : Holds (serveAll history.served) row) (guid : row.guid = details.bindingID) :
    row = details.row params := by
  rcases history.holds_iff.mp held with ⟨maker, later, made, makerBound, makerAccepted, _, rfl, _⟩
  rcases history.eq_of_boundBefore makerBound bound guid with ⟨rfl, _⟩
  rw [accepted, Option.some.injEq] at makerAccepted
  rw [makerAccepted]

end

theorem retrievable_of_reports {bindingID : GoString}
    (reports : Reports history.served bindingID) : Retrievable history.served bindingID := by
  constructor
  · rintro details after bound rfl kept
    rcases history.accepted bound with ⟨params, accepted⟩
    have loaded := (BindDetails.loaded_of_accepted accepted).1
    have held : Holds (serveAll history.served) (details.row params) := by
      by_contra lost
      have answered := reports.current details params ⟨after, bound, kept⟩ rfl loaded
      rw [history.getBinding_of_not_holds fun row held guid =>
        lost (history.eq_row_of_holds bound accepted held guid ▸ held)] at answered
      cases answered
    rcases (history.holds_row_iff bound accepted).mp held with ⟨given, unended⟩
    refine ⟨⟨params, loaded, given⟩, ?_⟩
    intro each eachMem other isBind sameApp
    by_contra deletes
    refine unended each eachMem ⟨by simpa using deletes, ?_⟩
    rw [isBind]
    exact ⟨history.accepted_of_mem bound eachMem isBind, sameApp.symm⟩
  · rintro details after bound rfl ⟨each, eachMem, unbinds⟩ params loaded given
    have accepted := history.accepted_of_loaded bound loaded
    by_contra unended
    push Not at unended
    have held := (history.holds_row_iff bound accepted).mpr ⟨given, unended⟩
    have notCurrent : ∀ other, Current history.served other →
        other.bindingID ≠ details.bindingID := by
      rintro other ⟨later, otherBound, kept⟩ sameID
      rcases history.eq_of_boundBefore otherBound bound sameID with ⟨rfl, rfl⟩
      exact kept each eachMem unbinds
    rcases reports.other notCurrent with ⟨err, answered⟩
    rw [history.getBinding_of_holds held] at answered
    cases answered

theorem reports_of_retrievable {bindingID : GoString}
    (retrievable : Retrievable history.served bindingID) :
    Reports history.served bindingID := by
  constructor
  · rintro details params ⟨after, bound, kept⟩ rfl loaded
    rcases retrievable.current details after bound rfl kept with
      ⟨⟨_, sameLoaded, given⟩, deleted⟩
    rw [loaded, Option.some.injEq] at sameLoaded
    subst sameLoaded
    have accepted := history.accepted_of_loaded bound loaded
    have unended : ∀ later ∈ after, ¬later.Ends (details.row params) := by
      rintro ⟨request, faults⟩ laterMem ⟨deletes, ends⟩
      cases request with
      | unbind bindingID => exact kept _ laterMem (congrArg BrokerRequest.unbind ends.symm)
      | bind other =>
          have fails : faults.delete = true := deleted _ laterMem other rfl ends.2.symm
          simp [fails] at deletes
    rw [credentials, if_neg given]
    exact history.getBinding_of_holds
      ((history.holds_row_iff bound accepted).mpr ⟨given, unended⟩)
  · intro notCurrent
    refine ⟨.getting, history.getBinding_of_not_holds ?_⟩
    rintro row held rfl
    rcases history.holds_iff.mp held with
      ⟨details, after, params, bound, accepted, given, rfl, unended⟩
    have unbound : ∃ later ∈ after, later.request = .unbind details.bindingID := by
      by_contra kept
      push Not at kept
      exact notCurrent details ⟨after, bound, kept⟩ rfl
    rcases retrievable.unbound details after bound rfl unbound params
      (BindDetails.loaded_of_accepted accepted).1 given with ⟨later, laterMem, ends⟩
    exact unended later laterMem ends

/-- `GetBinding` reports a binding exactly if the table has kept its row, and only as long as it is
current. -/
theorem reports_iff (history : BindingHistory) (bindingID : GoString) :
    Reports history.served bindingID ↔ Retrievable history.served bindingID :=
  ⟨history.retrievable_of_reports, history.reports_of_retrievable⟩

end BindingHistory

/-- A binding without parameters. -/
def plainBinding : BindDetails where
  bindingID := text "plain"
  appGUID := text "app"
  rawParameters := []
  bindingID_ne_nil := by decide

/-- One request to bind, without an endpoint. -/
def plainHistory : BindingHistory where
  served := [{ request := .bind plainBinding }]
  succeed := by
    intro before each after split
    rcases List.append_eq_singleton_iff.mp split.symm with ⟨rfl, rest⟩ | ⟨_, none⟩
    · cases rest
      rfl
    · cases none
  distinct := List.pairwise_singleton _ _

/-- A binding without an endpoint cannot be retrieved. -/
theorem not_reports_always :
    ¬∀ (history : BindingHistory) (bindingID : GoString),
      Served.Reports history.served bindingID := by
  intro reports
  have answered := (reports plainHistory plainBinding.bindingID).current plainBinding {}
    ⟨[], ⟨[], {}, rfl⟩, by simp⟩ rfl rfl
  cases answered

end Promfetcher
