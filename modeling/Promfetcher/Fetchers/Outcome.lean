import Promfetcher.Fetchers.Accounting
import Promfetcher.Fetchers.Headers
import Promfetcher.Models.Find

/-!
# Errors of a metrics request

The workers of a request share one `ErrFetch`, which the last scrape to end in such an
error overwrites. Its code is nevertheless the same in all interleavings, and whether
there is an error at all depends on the outcomes of the scrapes and on whether an
exporter is configured.

The latter also decides for a request that asks for the metrics of the app only: the
loop that adds the exporters is guarded by `onlyAppMetrics`, the test of a worker for
exporters is not.
-/

namespace Promfetcher

open Foundation

/-- What `Metrics` returns after `wg.Wait`. -/
def Results.returned (results : Results) : Families × Option ErrFetch :=
  if results.errFetch.code ≠ 0 then (∅, some results.errFetch)
  else (merge results.metricsUnmerged, none)

/-- The scrape of one of the looked-up routes ends in an `ErrFetch`. -/
def AnyNotFound (outcome : JobId → ScrapeResult) (routes : Nat) : Prop :=
  ∃ idx < routes, ∃ appIdOrPath endpoint,
    outcome (.app idx) = .noEndpointFound appIdOrPath endpoint

namespace Request

variable {request : Request}

theorem exists_fails_iff : (∃ job ∈ request.pool.jobs, request.Fails job) ↔
    request.exporters = [] ∧ AnyNotFound request.outcome request.routes.length := by
  constructor
  · rintro ⟨job, jobMem, none, notFound⟩
    have noConversions : request.conversions = [] := by
      simp [conversions, none]
    rw [jobs_eq, noConversions, List.filterMap_nil, List.append_nil] at jobMem
    rcases List.mem_map.mp jobMem with ⟨⟨route, idx⟩, indexed, rfl⟩
    exact ⟨none, idx, List.snd_lt_of_mem_zipIdx indexed, notFound⟩
  · rintro ⟨none, idx, inRange, notFound⟩
    refine ⟨⟨.app idx, request.routes[idx]⟩, ?_, none, notFound⟩
    rw [jobs_eq]
    apply List.mem_append_left
    exact List.mem_map.mpr ⟨(request.routes[idx], idx),
      List.mk_mem_zipIdx_iff_getElem?.mpr (List.getElem?_eq_getElem inRange), rfl⟩

/-- If a job fails, the request returns an error with the code 406, whichever job was last. -/
theorem returned_of_fails {state : request.State} (reached : request.system.Reachable state)
    (waited : state.waited = true) (fails : ∃ job ∈ request.pool.jobs, request.Fails job) :
    ∃ err : ErrFetch, err.code = 406 ∧ state.shared.returned = (∅, some err) := by
  rcases Pool.effects_of_waited reached waited with ⟨order, jobs, shared⟩
  rcases fails with ⟨job, jobMem, fails⟩
  have code := request.foldl_record_code request.pool.shared
    (Or.inr ⟨job, jobs.mem_iff.mpr jobMem, fails⟩)
  change state.shared = order.foldl request.record request.pool.shared at shared
  refine ⟨state.shared.errFetch, shared ▸ code, ?_⟩
  rw [Results.returned, if_pos]
  rw [shared, code]
  decide

/-- If no job fails, it returns the contributions of all. -/
theorem returned_of_keeps {state : request.State} (reached : request.system.Reachable state)
    (waited : state.waited = true) (keeps : ¬∃ job ∈ request.pool.jobs, request.Fails job) :
    ∃ unmerged : List Families, unmerged.Perm request.contributions ∧
      state.shared.returned = (merge unmerged, none) := by
  have each : ∀ job ∈ request.pool.jobs, ¬request.Fails job :=
    fun job jobMem fails => keeps ⟨job, jobMem, fails⟩
  rcases finish_of_keeps reached waited each with ⟨result, finished⟩
  rcases finish_of_waited reached waited finished with ⟨_, unmerged, perm, rfl⟩
  refine ⟨unmerged, perm, ?_⟩
  unfold Results.finish at finished
  unfold Results.returned
  split at finished
  · cases finished
  · next code =>
      rw [Except.ok.injEq] at finished
      rw [if_neg code, finished]

/-! ## One configuration -/

/-- Every run ends, and what is returned at its end is decided by the outcomes. -/
structure DecidedByOutcomes (state : request.State) : Prop where
  ends : ∀ event after, request.system.step state event after → after.ahead < state.ahead
  not_stuck : state.waited = false → ∃ event after, request.system.step state event after
  error_iff : state.waited = true → (state.shared.returned.2.isSome ↔
    request.exporters = [] ∧ AnyNotFound request.outcome request.routes.length)
  code : state.waited = true → ∀ err, state.shared.returned.2 = some err → err.code = 406
  no_metrics : state.waited = true → ∀ err, state.shared.returned.2 = some err →
    state.shared.returned.1 = ∅

/-- Whether a request returns an error, and with which code, does not depend on the interleaving of
its workers. -/
theorem decidedByOutcomes (request : Request)
    (state : {state // request.system.Reachable state}) : DecidedByOutcomes state.val where
  ends _ _ moves := Pool.Step.ahead_lt moves
  not_stuck := Pool.progress request.workers_pos request.capacity_pos state.property
  error_iff := by
    intro waited
    rw [← exists_fails_iff]
    by_cases fails : ∃ job ∈ request.pool.jobs, request.Fails job
    · rcases returned_of_fails state.property waited fails with ⟨err, _, returned⟩
      simp [returned, fails]
    · rcases returned_of_keeps state.property waited fails with ⟨unmerged, _, returned⟩
      simp [returned, fails]
  code := by
    intro waited err errored
    by_cases fails : ∃ job ∈ request.pool.jobs, request.Fails job
    · rcases returned_of_fails state.property waited fails with ⟨other, code, returned⟩
      rw [returned] at errored
      cases errored
      exact code
    · rcases returned_of_keeps state.property waited fails with ⟨unmerged, _, returned⟩
      rw [returned] at errored
      cases errored
  no_metrics := by
    intro _ err errored
    unfold Results.returned at errored ⊢
    split at errored
    · next code => rw [if_pos code]
    · cases errored

end Request

/-! ## Two configurations -/

/-- A request for the metrics of an app only, with all that decides its outcome but the
configuration. -/
structure AppQuery where
  rts : Routes
  appIdOrPathOrName : GoString
  headers : Header
  outcome : JobId → ScrapeResult
  /-- The order in which a range over the table goes. -/
  order : List (Sigma fun _ : Uri => Slice)
  order_perm : order.Perm rts.table.entries

/-- Both are errors with the same code, or both have the same families with the same metrics. -/
def Alike : Families × Option ErrFetch → Families × Option ErrFetch → Prop
  | (_, some err), (_, some other) => err.code = other.code
  | (families, none), (others, none) =>
      ∀ name, (name ∈ families ↔ name ∈ others) ∧
        (metricsOf name families).Perm (metricsOf name others)
  | _, _ => False

namespace AppQuery

variable [GoRuntime] (query : AppQuery)

/-- The result of the lookup. -/
def entries : List (Option Route) :=
  query.rts.find query.order query.appIdOrPathOrName

/-- The request whose workers run for the query. -/
structure Runs (exporters : List ExternalExporter) (request : Request) : Prop where
  routes : derefRoutes query.entries = .ok request.routes
  exporters : request.exporters = exporters
  onlyAppMetrics : request.onlyAppMetrics = true
  headers : request.headers = query.headers
  outcome : request.outcome = query.outcome

/-- What `Metrics` can return. It returns nothing if it panics at a nil route. -/
inductive Returns (exporters : List ExternalExporter) : Families × Option ErrFetch → Prop where
  | noApp (none : query.entries = []) :
      Returns exporters (∅, some (errNoAppFound query.appIdOrPathOrName))
  | scraped {request : Request} {state : request.State} (runs : query.Runs exporters request)
      (reached : request.system.Reachable state) (waited : state.waited = true) :
      Returns exporters state.shared.returned

/-- `Metrics` returns under both configurations, and all that it can return is alike. -/
structure SameOutcome (first second : List ExternalExporter) : Prop where
  returnsFirst : ∃ returned, query.Returns first returned
  returnsSecond : ∃ returned, query.Returns second returned
  alike : ∀ returned other, query.Returns first returned → query.Returns second other →
    Alike returned other

variable {query} {exporters : List ExternalExporter} {request : Request}

theorem Runs.entries_eq (runs : query.Runs exporters request) :
    query.entries = request.routes.map some :=
  eq_map_some_of_derefRoutes runs.routes

theorem Runs.exists_fails_iff (runs : query.Runs exporters request) :
    (∃ job ∈ request.pool.jobs, request.Fails job) ↔
      exporters = [] ∧ AnyNotFound query.outcome query.entries.length := by
  rw [Request.exists_fails_iff, runs.exporters, runs.outcome, runs.entries_eq, List.length_map]

/-- The contributions do not depend on the exporters. -/
theorem Runs.contributions_eq {others : List ExternalExporter} {other : Request}
    (runs : query.Runs exporters request) (otherRuns : query.Runs others other) :
    request.contributions = other.contributions := by
  have routes : request.routes = other.routes := by
    have same := runs.routes.symm.trans otherRuns.routes
    rwa [Except.ok.injEq] at same
  have each (id : JobId) (route : Route) :
      request.contribution id route = other.contribution id route := by
    rw [Request.contribution, Request.contribution, runs.outcome, otherRuns.outcome]
  simp only [Request.contributions, runs.onlyAppMetrics, otherRuns.onlyAppMetrics, routes, each,
    if_true]

theorem Returns.none_not_mem {returned : Families × Option ErrFetch}
    (returns : query.Returns exporters returned) : none ∉ query.entries := by
  cases returns with
  | noApp none => simp [none]
  | scraped runs => simp [runs.entries_eq]

theorem Returns.isSome_iff {returned : Families × Option ErrFetch}
    (returns : query.Returns exporters returned) : returned.2.isSome ↔
      query.entries = [] ∨ exporters = [] ∧ AnyNotFound query.outcome query.entries.length := by
  cases returns with
  | noApp none => simp [none]
  | @scraped request state runs reached waited =>
      have some : query.entries ≠ [] := by
        simpa [runs.entries_eq] using request.routes_ne_nil
      rw [or_iff_right some, ← runs.exists_fails_iff, Request.exists_fails_iff]
      exact (request.decidedByOutcomes ⟨state, reached⟩).error_iff waited

theorem exists_returns (full : none ∉ query.entries) (exporters : List ExternalExporter) :
    ∃ returned, query.Returns exporters returned := by
  rcases Routes.exists_eq_map_some full with ⟨routes, entries⟩
  by_cases none : routes = []
  · exact ⟨_, .noApp (by rw [entries, none]; rfl)⟩
  · let request : Request :=
      { Request.ofRoutes none exporters query.headers query.outcome with onlyAppMetrics := true }
    rcases request.exists_complete with ⟨state, reached, waited⟩
    have went : derefRoutes query.entries = .ok routes := by
      rw [entries, derefRoutes_map_some]
    have runs : query.Runs exporters request := ⟨went, rfl, rfl, rfl, rfl⟩
    exact ⟨_, .scraped runs reached waited⟩

/-- Two runs of which both fail or neither return alike. -/
theorem Runs.alike {others : List ExternalExporter} {other : Request}
    (runs : query.Runs exporters request) (otherRuns : query.Runs others other)
    (same : (∃ job ∈ request.pool.jobs, request.Fails job) ↔
      ∃ job ∈ other.pool.jobs, other.Fails job)
    {state : request.State} (reached : request.system.Reachable state)
    (waited : state.waited = true) {otherState : other.State}
    (otherReached : other.system.Reachable otherState) (otherWaited : otherState.waited = true) :
    Alike state.shared.returned otherState.shared.returned := by
  by_cases fails : ∃ job ∈ request.pool.jobs, request.Fails job
  · rcases Request.returned_of_fails reached waited fails with ⟨err, code, returned⟩
    rcases Request.returned_of_fails otherReached otherWaited (same.mp fails) with
      ⟨otherErr, otherCode, otherReturned⟩
    rw [returned, otherReturned]
    exact code.trans otherCode.symm
  · rcases Request.returned_of_keeps reached waited fails with ⟨unmerged, perm, returned⟩
    rcases Request.returned_of_keeps otherReached otherWaited (mt same.mpr fails) with
      ⟨otherUnmerged, otherPerm, otherReturned⟩
    rw [← runs.contributions_eq otherRuns] at otherPerm
    have sameMaps := perm.trans otherPerm.symm
    rw [returned, otherReturned]
    intro name
    rw [mem_merge, mem_merge, metricsOf_merge, metricsOf_merge]
    exact ⟨exists_congr fun families => and_congr_left' sameMaps.mem_iff,
      sameMaps.flatMap_right _⟩

theorem sameConfig_of_sameOutcome {first second : List ExternalExporter}
    (same : query.SameOutcome first second) :
    (first = [] ↔ second = []) ∨ ¬AnyNotFound query.outcome query.entries.length := by
  refine or_iff_not_imp_right.mpr fun notFound => ?_
  rw [not_not] at notFound
  have some : query.entries ≠ [] := by
    rcases notFound with ⟨idx, inRange, _⟩
    exact List.ne_nil_of_length_pos (Nat.zero_lt_of_lt inRange)
  rcases same.returnsFirst with ⟨returned, returns⟩
  rcases same.returnsSecond with ⟨other, otherReturns⟩
  have both : returned.2.isSome ↔ other.2.isSome := by
    have alike := same.alike returned other returns otherReturns
    rcases returned with ⟨families, _ | err⟩ <;> rcases other with ⟨others, _ | otherErr⟩
    · simp
    · cases alike
    · cases alike
    · simp
  rw [returns.isSome_iff, otherReturns.isSome_iff] at both
  simpa [some, notFound] using both

theorem alike_of_sameConfig {first second : List ExternalExporter}
    (sameConfig : (first = [] ↔ second = []) ∨
      ¬AnyNotFound query.outcome query.entries.length)
    {returned other : Families × Option ErrFetch} (returns : query.Returns first returned)
    (otherReturns : query.Returns second other) : Alike returned other := by
  cases returns with
  | noApp none =>
      cases otherReturns with
      | noApp => rfl
      | @scraped request _ runs =>
          exact absurd (List.map_eq_nil_iff.mp (runs.entries_eq.symm.trans none))
            request.routes_ne_nil
  | @scraped request _ runs reached waited =>
      cases otherReturns with
      | noApp none =>
          exact absurd (List.map_eq_nil_iff.mp (runs.entries_eq.symm.trans none))
            request.routes_ne_nil
      | scraped otherRuns otherReached otherWaited =>
          refine runs.alike otherRuns ?_ reached waited otherReached otherWaited
          rw [runs.exists_fails_iff, otherRuns.exists_fails_iff]
          tauto

/-- The outcome is the same under both configurations exactly if `Metrics` does not panic and, in
case one of them has an exporter and the other has none, no scrape ends in an `ErrFetch`. -/
theorem sameOutcome_iff (query : AppQuery) (first second : List ExternalExporter) :
    query.SameOutcome first second ↔ none ∉ query.entries ∧
      ((first = [] ↔ second = []) ∨ ¬AnyNotFound query.outcome query.entries.length) := by
  constructor
  · intro same
    rcases same.returnsFirst with ⟨_, returns⟩
    exact ⟨returns.none_not_mem, sameConfig_of_sameOutcome same⟩
  · rintro ⟨full, sameConfig⟩
    exact ⟨exists_returns full first, exists_returns full second,
      fun _ _ returns otherReturns => alike_of_sameConfig sameConfig returns otherReturns⟩

end AppQuery

/-- A request for the route of an instance that answers with a client error. -/
def refusedQuery : AppQuery where
  rts := Routes.single ⟨text "a.com"⟩ (sampleInstance "0" "10.0.0.1:80")
  appIdOrPathOrName := text "a.com"
  headers := ∅
  outcome := fun _ => .noEndpointFound (text "o/s/n (status code 404)") (text "/metrics")
  order := (Routes.single ⟨text "a.com"⟩ (sampleInstance "0" "10.0.0.1:80")).table.entries
  order_perm := .refl _

/-- An external exporter without parameters. -/
def nodeExporter : ExternalExporter where
  name := text "node"
  host := text "10.0.0.9:9100"
  metricsPath := text "/metrics"

section

local instance asciiOutcome : GoRuntime := GoRuntime.ascii

/-- With an exporter configured, a client error of an instance is no error of the request. -/
theorem not_sameOutcome_always :
    ¬∀ (query : AppQuery) (first second : List ExternalExporter),
      query.SameOutcome first second := by
  intro same
  rcases AppQuery.sameConfig_of_sameOutcome (same refusedQuery [] [nodeExporter]) with
    sameConfig | answered
  · simp at sameConfig
  · have found : refusedQuery.entries.length = 1 := by
      decide
    exact answered ⟨0, by simp [found], _, _, rfl⟩

end

end Promfetcher
