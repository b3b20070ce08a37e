import Promfetcher.Api.Broker
import Promfetcher.Scrapers.Scrape
import Promfetcher.Foundation.History

/-!
# The path that is scraped follows the latest binding

The broker writes the table of endpoints and the scraper reads it. A row lives from
the request to bind that makes it to the next accepted one for its app, or to the
request to unbind it. If the database never fails and every binding id is used for
one app, the table holds exactly the live rows.
-/

namespace Promfetcher

open Foundation

namespace BrokerRequest

/-- The database after some requests without failures, from an empty table. -/
def serveAll (requests : List BrokerRequest) : Option Store :=
  requests.foldl (fun db request => (request.serve {} db).1) (some Table.empty)

/-- A request to bind makes the row if it is accepted and names an endpoint. -/
def Makes : BrokerRequest → AppEndpoint → Prop
  | .bind details, row => ∃ params, details.accepted = some params ∧ params.endpoint ≠ [] ∧
      row = details.row params
  | .unbind _, _ => False

/-- The row does not outlive a request that replaces or deletes it. -/
def Ends : BrokerRequest → AppEndpoint → Prop
  | .bind details, row => details.accepted.isSome ∧ row.appGUID = details.appGUID
  | .unbind bindingID, row => row.guid = bindingID

/-- Every binding id is used for one app only. -/
def OneApp (requests : List BrokerRequest) : Prop :=
  ∀ details, bind details ∈ requests → ∀ other, bind other ∈ requests →
    details.bindingID = other.bindingID → details.appGUID = other.appGUID

/-- The most recent accepted request to bind the app gave this endpoint, which is not empty, and
its binding has not been unbound since. -/
def Bound (requests : List BrokerRequest) (app endpoint : GoString) : Prop :=
  ∃ before details after params, requests = before ++ bind details :: after ∧
    details.appGUID = app ∧ details.accepted = some params ∧
    (∀ other, bind other ∈ after → other.appGUID = app → other.accepted = none) ∧
    params.endpoint = endpoint ∧ endpoint ≠ [] ∧ unbind details.bindingID ∉ after

/-! ## The rows that live -/

theorem mem_of_live {requests : List BrokerRequest} {row : AppEndpoint}
    (live : Live Makes Ends requests row) :
    ∃ details, bind details ∈ requests ∧ details.bindingID = row.guid ∧
      details.appGUID = row.appGUID := by
  rcases live with ⟨before, request, after, rfl, makes, _⟩
  cases request with
  | bind details =>
      rcases makes with ⟨params, _, _, rfl⟩
      exact ⟨details, List.mem_append_right _ List.mem_cons_self, rfl, rfl⟩
  | unbind bindingID => exact absurd makes id

/-- The endpoint of an app is bound exactly if the app has a live row with it. -/
theorem bound_iff {requests : List BrokerRequest} {app endpoint : GoString} :
    Bound requests app endpoint ↔
      ∃ row, Live Makes Ends requests row ∧ row.appGUID = app ∧ row.endpoint = endpoint := by
  constructor
  · rintro ⟨before, details, after, params, rfl, ofApp, accepted, latest, rfl, some, kept⟩
    refine ⟨details.row params,
      ⟨before, bind details, after, rfl, ⟨params, accepted, some, rfl⟩, ?_⟩, ofApp, rfl⟩
    intro later laterMem ends
    cases later with
    | bind other =>
        rcases ends with ⟨isAccepted, sameApp⟩
        rw [latest other laterMem (sameApp.symm.trans ofApp)] at isAccepted
        cases isAccepted
    | unbind bindingID =>
        have same : details.bindingID = bindingID := ends
        exact kept (same ▸ laterMem)
  · rintro ⟨row, ⟨before, request, after, rfl, makes, kept⟩, ofApp, rfl⟩
    cases request with
    | bind details =>
        rcases makes with ⟨params, accepted, some, rfl⟩
        refine ⟨before, details, after, params, rfl, ofApp, accepted, ?_, rfl, some, ?_⟩
        · intro other otherMem sameApp
          by_contra isAccepted
          exact kept _ otherMem ⟨Option.isSome_iff_ne_none.mpr isAccepted, ofApp.trans sameApp.symm⟩
        · exact fun unbound => kept _ unbound rfl
    | unbind bindingID => exact absurd makes id

theorem eq_of_live {requests : List BrokerRequest} {row other : AppEndpoint}
    (live : Live Makes Ends requests row) (otherLive : Live Makes Ends requests other)
    (sameApp : row.appGUID = other.appGUID) : row = other := by
  induction requests using List.reverseRecOn with
  | nil => exact absurd live (not_live_nil row)
  | append_singleton requests request inductionHypothesis =>
      have ended {made kept : AppEndpoint} (makes : request.Makes made)
          (same : kept.appGUID = made.appGUID) : request.Ends kept := by
        cases request with
        | bind details =>
            rcases makes with ⟨params, accepted, _, rfl⟩
            exact ⟨by rw [accepted]; rfl, same⟩
        | unbind bindingID => exact absurd makes id
      rcases live_append_singleton.mp live with makes | ⟨earlier, kept⟩ <;>
        rcases live_append_singleton.mp otherLive with otherMakes | ⟨otherEarlier, otherKept⟩
      · cases request with
        | bind details =>
            rcases makes with ⟨params, accepted, _, rfl⟩
            rcases otherMakes with ⟨otherParams, otherAccepted, _, rfl⟩
            rw [accepted, Option.some.injEq] at otherAccepted
            rw [otherAccepted]
        | unbind bindingID => exact absurd makes id
      · exact absurd (ended makes sameApp.symm) otherKept
      · exact absurd (ended otherMakes sameApp) kept
      · exact inductionHypothesis earlier otherEarlier

/-! ## The table -/

theorem serve_bind_ok_iff {details : BindDetails} {store : Store}
    (own : ∀ row ∈ store, row.guid = details.bindingID → row.appGUID = details.appGUID) :
    ((bind details).serve {} (some store)).2 = .ok () ↔ details.accepted.isSome := by
  cases accepted : details.accepted with
  | none =>
      rcases Broker.bind_of_rejected accepted (some store) {} with ⟨err, served⟩
      simp [serve, served]
  | some params =>
      refine iff_of_true ?_ rfl
      rw [serve, Broker.bind_of_accepted accepted]
      split
      · rfl
      · split
        · next conflict =>
            rcases BindDetails.create_cleared_eq_none_iff.mp conflict with
              fails | ⟨row, rowMem, taken, fails | other⟩
            · cases fails
            · cases fails
            · exact absurd (own row rowMem taken) other
        · rfl

theorem holds_serve {request : BrokerRequest} {store : Store}
    (own : ∀ details, request = bind details → ∀ row ∈ store, row.guid = details.bindingID →
      row.appGUID = details.appGUID) (row : AppEndpoint) :
    Holds (request.serve {} (some store)).1 row ↔
      request.Makes row ∨ Holds (some store) row ∧ ¬request.Ends row := by
  cases request with
  | unbind bindingID =>
      simp [serve, Broker.unbind, Store.mem_delete, Makes, Ends]
  | bind details =>
      have answered := serve_bind_ok_iff (own details rfl)
      cases accepted : details.accepted with
      | none =>
          rcases Broker.bind_of_rejected accepted (some store) {} with ⟨err, served⟩
          simp [serve, served, Makes, Ends, accepted]
      | some params =>
          have cleared : row ∈ details.cleared {} store ↔
              row ∈ store ∧ row.appGUID ≠ details.appGUID := by
            simp [BindDetails.mem_cleared]
          rw [accepted, serve, Broker.bind_of_accepted accepted] at answered
          rw [serve, Broker.bind_of_accepted accepted]
          simp only [Makes, Ends, accepted, Option.some.injEq, Option.isSome_some, true_and,
            exists_eq_left', holds_some]
          split
          · next empty => simp [empty, cleared]
          · next some =>
              split
              · next conflict =>
                  rw [if_neg some, conflict] at answered
                  simp at answered
              · next after created =>
                  rw [holds_some, Store.mem_create created, cleared]
                  simp [some]

theorem serveAll_some (requests : List BrokerRequest) :
    ∃ store, serveAll requests = some store := by
  unfold serveAll
  generalize (Table.empty : Store) = start
  induction requests generalizing start with
  | nil => exact ⟨start, rfl⟩
  | cons request requests inductionHypothesis =>
      rcases request.exists_serve_eq_some {} start with ⟨after, served⟩
      rw [List.foldl_cons, served]
      exact inductionHypothesis after

theorem own_of_oneApp {requests before : List BrokerRequest} {request : BrokerRequest}
    (oneApp : OneApp requests) (isPrefix : before ++ [request] <+: requests) {store : Store}
    (holds : ∀ row, row ∈ store → Live Makes Ends before row) (details : BindDetails)
    (isBind : request = bind details) (row : AppEndpoint) (rowMem : row ∈ store)
    (taken : row.guid = details.bindingID) : row.appGUID = details.appGUID := by
  subst isBind
  rcases mem_of_live (holds row rowMem) with ⟨maker, makerMem, guid, appGUID⟩
  rw [← appGUID]
  apply oneApp maker (isPrefix.subset (List.mem_append_left _ makerMem)) details
  · exact isPrefix.subset (List.mem_append_right _ List.mem_cons_self)
  · exact guid.trans taken

/-- The table holds the live rows. -/
theorem holds_serveAll {requests : List BrokerRequest} (oneApp : OneApp requests)
    (row : AppEndpoint) :
    Holds (serveAll requests) row ↔ Live Makes Ends requests row := by
  apply mem_foldl_iff_live
  · simp [Holds]
  · intro before request isPrefix earlier
    rcases serveAll_some before with ⟨store, reached⟩
    change ∀ row, Holds (serveAll before) row ↔ _ at earlier
    change ∀ row, Holds (request.serve {} (serveAll before)).1 row ↔
      request.Makes row ∨ Holds (serveAll before) row ∧ ¬request.Ends row
    rw [reached] at earlier ⊢
    apply holds_serve
    exact own_of_oneApp oneApp isPrefix fun row rowMem =>
      (earlier row).mp (holds_some.mpr rowMem)

/-! ## The scrape -/

/-- The request cannot concern the app: it is rejected, or it binds another app, or it unbinds a
binding that the app never had. -/
def PassesBy (requests : List BrokerRequest) (app : GoString) : BrokerRequest → Prop
  | .bind details => details.accepted = none ∨ details.appGUID ≠ app
  | .unbind bindingID => ∀ details, bind details ∈ requests → details.bindingID = bindingID →
      details.appGUID ≠ app

/-- What the scrape of an app requests after some requests to the broker. -/
structure FollowsLatest (requests : List BrokerRequest) (route : Route)
    (metricPathDefault : GoString) (headers : Header) (outboundIP : GoString) : Prop where
  /-- A request to bind is rejected for its parameters only. -/
  accepts : ∀ before details after, requests = before ++ bind details :: after →
    (((bind details).serve {} (serveAll before)).2 = .ok () ↔ details.accepted.isSome)
  bound : ∀ endpoint, Bound requests route.tags.appID endpoint →
    (Scraper.request (serveAll requests) {} route metricPathDefault headers outboundIP).url =
      Scraper.scheme route ++ text "://" ++ route.address ++ endpoint
  unbound : (∀ endpoint, ¬Bound requests route.tags.appID endpoint) →
    (Scraper.request (serveAll requests) {} route metricPathDefault headers outboundIP).url =
      Scraper.scheme route ++ text "://" ++ route.address ++ metricPathDefault
  unchanged : ∀ request, PassesBy requests route.tags.appID request →
    Scraper.request (serveAll (requests ++ [request])) {} route metricPathDefault headers
        outboundIP =
      Scraper.request (serveAll requests) {} route metricPathDefault headers outboundIP

theorem holds_of_passesBy {requests : List BrokerRequest} {request : BrokerRequest}
    {app : GoString} (oneApp : OneApp requests) (passes : PassesBy requests app request)
    {row : AppEndpoint} (ofApp : row.appGUID = app) :
    Holds (serveAll (requests ++ [request])) row ↔ Holds (serveAll requests) row := by
  have stepped : serveAll (requests ++ [request]) = (request.serve {} (serveAll requests)).1 := by
    rw [serveAll, List.foldl_append]
    rfl
  rw [stepped]
  cases request with
  | bind details =>
      rcases passes with rejected | other
      · rcases Broker.bind_of_rejected rejected (serveAll requests) {} with ⟨err, served⟩
        rw [serve, served]
      · have spares : (bind details).Spares row := fun same => other (same.symm.trans ofApp)
        exact holds_serve_of_spares spares _ _
  | unbind bindingID =>
      by_cases guid : row.guid = bindingID
      · have absent : ¬Holds (serveAll requests) row := by
          rw [holds_serveAll oneApp]
          intro live
          rcases mem_of_live live with ⟨maker, makerMem, made, ofMaker⟩
          exact passes maker makerMem (made.trans guid) (ofMaker.trans ofApp)
        rcases serveAll_some requests with ⟨store, reached⟩
        rw [reached] at absent ⊢
        rw [holds_some] at absent
        simp [serve, Broker.unbind, Store.mem_delete, absent]
      · have spares : (unbind bindingID).Spares row := guid
        exact holds_serve_of_spares spares _ _

section

variable {requests : List BrokerRequest} {store : Store} {route : Route}
  (rows : ∀ row, row.appGUID = route.tags.appID → (row ∈ store ↔ Live Makes Ends requests row))
  (appRoute : route.metricsPath = []) (metricPathDefault : GoString)

include rows appRoute

theorem endpoint_of_live {row : AppEndpoint} (live : Live Makes Ends requests row)
    (ofApp : row.appGUID = route.tags.appID) :
    Scraper.endpoint (some store) {} route metricPathDefault = row.endpoint := by
  refine Scraper.endpoint_of_mem rfl appRoute ((rows row ofApp).mpr live) ofApp ?_ ?_ _
  · rcases mem_of_live live with ⟨details, _, guid, _⟩
    exact guid ▸ details.bindingID_ne_nil
  · intro other otherMem otherApp
    exact eq_of_live ((rows other otherApp).mp otherMem) live (otherApp.trans ofApp.symm)

theorem endpoint_of_not_live
    (none : ∀ row, Live Makes Ends requests row → row.appGUID ≠ route.tags.appID) :
    Scraper.endpoint (some store) {} route metricPathDefault = metricPathDefault := by
  refine Scraper.endpoint_of_not_mem _ appRoute (fun row rowMem ofApp => ?_) _
  exact none row ((rows row ofApp).mp rowMem) ofApp

end

/-- The scrape of an app requests the endpoint of its latest binding, or else the default path. -/
theorem followsLatest (requests : List BrokerRequest) (oneApp : OneApp requests) (route : Route)
    (appRoute : route.metricsPath = []) (metricPathDefault : GoString) (headers : Header)
    (outboundIP : GoString) :
    FollowsLatest requests route metricPathDefault headers outboundIP := by
  rcases serveAll_some requests with ⟨store, reached⟩
  have rows (row : AppEndpoint) : row ∈ store ↔ Live Makes Ends requests row := by
    rw [← holds_serveAll oneApp, reached, holds_some]
  refine ⟨?_, ?_, ?_, ?_⟩
  · rintro before details after split
    have isPrefix : before ++ [bind details] <+: requests := ⟨after, by simp [split]⟩
    have earlierOneApp : OneApp before := fun details detailsMem other otherMem =>
      oneApp details (isPrefix.subset (List.mem_append_left _ detailsMem)) other
        (isPrefix.subset (List.mem_append_left _ otherMem))
    rcases serveAll_some before with ⟨earlier, earlierReached⟩
    rw [earlierReached]
    apply serve_bind_ok_iff
    refine own_of_oneApp oneApp isPrefix (fun row rowMem => ?_) details rfl
    rw [← holds_serveAll earlierOneApp, earlierReached]
    exact holds_some.mpr rowMem
  · intro endpoint bound
    rcases bound_iff.mp bound with ⟨row, live, ofApp, rfl⟩
    rw [reached, Scraper.request,
      endpoint_of_live (fun row _ => rows row) appRoute metricPathDefault live ofApp]
  · intro unbound
    have none (row : AppEndpoint) (live : Live Makes Ends requests row) :
        row.appGUID ≠ route.tags.appID := fun ofApp =>
      unbound row.endpoint (bound_iff.mpr ⟨row, live, ofApp, rfl⟩)
    rw [reached, Scraper.request,
      endpoint_of_not_live (fun row _ => rows row) appRoute metricPathDefault none]
  · intro request passes
    rcases serveAll_some (requests ++ [request]) with ⟨later, laterReached⟩
    have laterRows (row : AppEndpoint) (ofApp : row.appGUID = route.tags.appID) :
        row ∈ later ↔ Live Makes Ends requests row := by
      rw [← holds_serveAll oneApp, ← holds_of_passesBy oneApp passes ofApp, laterReached,
        holds_some]
    have same : Scraper.endpoint (some later) {} route metricPathDefault =
        Scraper.endpoint (some store) {} route metricPathDefault := by
      by_cases bound : ∃ row, Live Makes Ends requests row ∧ row.appGUID = route.tags.appID
      · rcases bound with ⟨row, live, ofApp⟩
        rw [endpoint_of_live laterRows appRoute metricPathDefault live ofApp,
          endpoint_of_live (fun row _ => rows row) appRoute metricPathDefault live ofApp]
      · push Not at bound
        rw [endpoint_of_not_live laterRows appRoute metricPathDefault bound,
          endpoint_of_not_live (fun row _ => rows row) appRoute metricPathDefault bound]
    rw [reached, laterReached, Scraper.request, Scraper.request, same]

/-- An earlier binding of the app. -/
def earlierBinding : BindDetails where
  bindingID := text "old"
  appGUID := text "app"
  rawParameters := text "\x7b\"endpoint\":\"/prometheus\"\x7d"
  bindingID_ne_nil := by decide

/-- The app is bound again, and then its earlier binding is unbound. -/
def sampleRequests : List BrokerRequest :=
  [bind earlierBinding, bind sampleBinding, unbind earlierBinding.bindingID]

theorem followsLatest_sample :
    (Scraper.request (serveAll sampleRequests) {}
      { tags := { appID := text "app" }, address := text "10.0.0.1:80" } (text "/default") ∅
      []).url = text "http://10.0.0.1:80/metrics" := by
  have oneApp : OneApp sampleRequests := by
    intro details detailsMem other otherMem _
    simp only [sampleRequests, List.mem_cons, bind.injEq, reduceCtorEq, List.not_mem_nil,
      or_false] at detailsMem otherMem
    rcases detailsMem with rfl | rfl <;> rcases otherMem with rfl | rfl <;> rfl
  have bound : Bound sampleRequests (text "app") (text "/metrics") := by
    refine ⟨[bind earlierBinding], sampleBinding, [unbind earlierBinding.bindingID],
      ⟨text "/metrics"⟩, rfl, rfl, by decide, ?_, rfl, by decide, ?_⟩
    · simp
    · simp only [List.mem_singleton, unbind.injEq]
      decide
  exact (followsLatest sampleRequests oneApp
    { tags := { appID := text "app" }, address := text "10.0.0.1:80" } rfl (text "/default")
    ∅ []).bound (text "/metrics") bound

end BrokerRequest

end Promfetcher
