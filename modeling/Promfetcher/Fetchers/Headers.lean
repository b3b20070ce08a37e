import Promfetcher.Fetchers.MetricsFetcher
import Promfetcher.Fetchers.RoutesFetcher
import Promfetcher.Models.Lookup

/-!
# Headers of scrapes

A worker drops its headers when it meets the route of an external exporter, and
never gets them back. The jobs of apps are sent first, so that this harms a scrape
of an app only if a looked-up route itself has the process type of an external
exporter, which is a tag of its registration.
-/

namespace Promfetcher

open Foundation

/-- The routes of a lookup, once the loop that builds `mapTagsRoute` has gone through them. -/
def derefRoutes : List (Option Route) → Except Panic (List Route)
  | [] => .ok []
  | none :: _ => .error .nilDereference
  | some rte :: routes => do
      return rte :: (← derefRoutes routes)

theorem derefRoutes_map_some (routes : List Route) :
    derefRoutes (routes.map some) = .ok routes := by
  induction routes with
  | nil => rfl
  | cons rte routes inductionHypothesis =>
      simp only [List.map_cons, derefRoutes, inductionHypothesis]
      rfl

theorem eq_map_some_of_derefRoutes {entries : List (Option Route)} {routes : List Route}
    (went : derefRoutes entries = .ok routes) : entries = routes.map some := by
  induction entries generalizing routes with
  | nil =>
      cases went
      rfl
  | cons entry entries inductionHypothesis =>
      cases entry with
      | none => cases went
      | some rte =>
          simp only [derefRoutes, bind, Except.bind] at went
          split at went
          · cases went
          · next rest later =>
              cases went
              rw [inductionHypothesis later, List.map_cons]

/-- What a lookup in a table returns. -/
inductive Found [GoRuntime] (rts : Routes) : List (Option Route) → Prop where
  | byOrgSpaceName {order : List (Sigma fun _ : Uri => Slice)}
      (visits : order.Perm rts.table.entries) (org space name : GoString) :
      Found rts ((rts.findByOrgSpaceName order org space name).map some)
  | byId {order : List (Sigma fun _ : Uri => Slice)}
      (visits : order.Perm rts.table.entries) (appId : GoString) :
      Found rts ((rts.findById order appId).map some)
  | byRouteName (routeName : GoString) :
      Found rts ((rts.findByRouteName routeName).elim [] rts.heap.read)

/-- A lookup in a table that the messages of the bus have built. -/
structure Lookup [GoRuntime] where
  rts : Routes
  reachable : RoutesFetcher.callbackSystem.Reachable rts
  entries : List (Option Route)
  found : Found rts entries

namespace Request

/-- The headers that belong to a job: those of the request go to the apps only. -/
def headersOf (request : Request) : JobId → Header
  | .app _ => request.headers
  | .exporter _ _ => ∅

/-- Every job that has been scraped was scraped with its headers, and once `Wait` has been passed
all jobs have been scraped. -/
structure RightHeaders (request : Request) (state : request.State) : Prop where
  scraped : ∀ entry ∈ state.log, entry.2 = request.headersOf entry.1.id
  all : state.waited = true → ∀ job ∈ request.pool.jobs, ∃ headers, (job, headers) ∈ state.log

/-- The loop before the workers goes through the routes of the lookup, and in every run of every
request for them the jobs are scraped with their headers. -/
def HeadersReach (entries : List (Option Route)) (exporters : List ExternalExporter)
    (headers : Header) : Prop :=
  ∃ routes, derefRoutes entries = .ok routes ∧
    ∀ request : Request, request.routes = routes → request.exporters = exporters →
      request.headers = headers → ∀ state, request.system.Reachable state →
        request.RightHeaders state

/-- No route of the lookup is nil, and none has the process type of an external exporter if there
are headers to lose. -/
def KeepsHeaders (entries : List (Option Route)) (headers : Header) : Prop :=
  none ∉ entries ∧
    (headers = ∅ ∨ ∀ route, some route ∈ entries → route.tags.processType ≠ externalExporter)

theorem foldl_enter {headers : Header} {jobs : List Job}
    (keeps : headers = ∅ ∨ ∀ job ∈ jobs, job.route.tags.processType ≠ externalExporter) :
    jobs.foldl enter headers = headers := by
  induction jobs with
  | nil => rfl
  | cons job jobs inductionHypothesis =>
      have same : enter headers job = headers := by
        unfold enter
        rcases keeps with rfl | apps
        · simp
        · rw [if_neg (apps job List.mem_cons_self)]
      rw [List.foldl_cons, same]
      exact inductionHypothesis (keeps.imp_right fun apps other otherMem =>
        apps other (List.mem_cons_of_mem _ otherMem))

variable {request : Request}

theorem earlier_subset {earlier later : List Job} {job : Job}
    (sent : request.pool.jobs = earlier ++ job :: later) {idx : Nat} (app : job.id = .app idx) :
    ∀ other ∈ earlier, other ∈ request.appJobs := by
  rw [jobs_eq] at sent
  rcases List.append_eq_append_iff.mp sent with ⟨between, _, rest⟩ | ⟨between, apps, _⟩
  · have jobMem : job ∈ request.conversions.filterMap converted := by
      rw [rest]
      simp
    rcases request.mem_exporterJobs jobMem with ⟨⟨_, _, exporter⟩, _⟩
    rw [app] at exporter
    cases exporter
  · intro other otherMem
    rw [apps]
    exact List.mem_append_left _ otherMem

theorem rightHeaders_of_keeps {headers : Header} (same : request.headers = headers)
    (keeps : KeepsHeaders (request.routes.map some) headers) {state : request.State}
    (reached : request.system.Reachable state) : request.RightHeaders state where
  scraped := by
    rintro ⟨job, seen⟩ logged
    subst same
    rcases Pool.scoped_of_log reached _ logged with ⟨earlier, later, taken, sent, sublist, entered⟩
    have jobMem : job ∈ request.pool.jobs := by
      rw [sent]
      simp
    change seen = enter (taken.foldl enter request.headers) job at entered
    rw [jobs_eq] at jobMem
    rcases List.mem_append.mp jobMem with isApp | isExporter
    · rcases request.mem_appJobs isApp with ⟨inRoutes, idx, app⟩
      have apps : request.headers = ∅ ∨ ∀ other ∈ taken ++ [job],
          other.route.tags.processType ≠ externalExporter := by
        refine keeps.2.imp_right fun webs other otherMem => webs _ ?_
        have otherIsApp : other ∈ request.appJobs := by
          rcases List.mem_append.mp otherMem with before | here
          · exact earlier_subset sent app other (sublist.subset before)
          · rwa [List.mem_singleton.mp here]
        exact List.mem_map_of_mem (request.mem_appJobs otherIsApp).1
      have kept := foldl_enter apps
      rw [List.foldl_append] at kept
      simp only [headersOf, app]
      rw [entered]
      exact kept
    · rcases request.mem_exporterJobs isExporter with ⟨⟨appID, idx, exporter⟩, tagRte, tags⟩
      simp only [headersOf, exporter]
      rw [entered, enter, if_pos (by rw [tags]; rfl)]
  all := by
    intro waited job jobMem
    have logged := (Pool.log_of_waited reached waited).mem_iff.mpr jobMem
    rcases List.mem_map.mp logged with ⟨⟨_, headers⟩, entryMem, rfl⟩
    exact ⟨headers, entryMem⟩

theorem keeps_of_headersReach {entries : List (Option Route)}
    {exporters : List ExternalExporter} {headers : Header}
    (reach : HeadersReach entries exporters headers) : KeepsHeaders entries headers := by
  rcases reach with ⟨routes, went, requests⟩
  rw [eq_map_some_of_derefRoutes went]
  refine ⟨by simp, or_iff_not_imp_right.mpr fun external => ?_⟩
  push Not at external
  rcases external with ⟨route, routeMem, process⟩
  have inRoutes : route ∈ routes := by simpa using routeMem
  -- In a run that ends, the job of this route has been scraped.
  let request := ofRoutes (List.ne_nil_of_mem inRoutes) exporters headers fun _ => .failure []
  rcases request.exists_complete with ⟨state, reached, waited⟩
  rcases List.mem_iff_getElem?.mp inRoutes with ⟨idx, indexed⟩
  have jobMem : ⟨.app idx, route⟩ ∈ request.pool.jobs := by
    rw [jobs_eq]
    apply List.mem_append_left
    exact List.mem_map.mpr ⟨(route, idx), List.mk_mem_zipIdx_iff_getElem?.mpr indexed, rfl⟩
  have right := requests request rfl rfl rfl state reached
  rcases right.all waited _ jobMem with ⟨seen, logged⟩
  rcases Pool.scoped_of_log reached _ logged with ⟨_, _, taken, _, _, entered⟩
  have kept : seen = headers := right.scraped _ logged
  rw [← kept]
  change seen = enter (taken.foldl enter headers) ⟨.app idx, route⟩ at entered
  rw [entered, enter, if_pos process]

theorem headersReach_of_keeps {entries : List (Option Route)} {headers : Header}
    (keeps : KeepsHeaders entries headers) (exporters : List ExternalExporter) :
    HeadersReach entries exporters headers := by
  rcases Routes.exists_eq_map_some keeps.1 with ⟨routes, rfl⟩
  refine ⟨routes, derefRoutes_map_some routes, ?_⟩
  rintro request rfl _ same state reached
  exact rightHeaders_of_keeps same keeps reached

/-- For every lookup in a table that the bus has built, the headers of the caller reach all apps
and no exporter exactly if no looked-up route is nil and none looks like that of an exporter. -/
theorem headersReach_iff [GoRuntime] (lookup : Lookup) (exporters : List ExternalExporter)
    (headers : Header) :
    HeadersReach lookup.entries exporters headers ↔ KeepsHeaders lookup.entries headers :=
  ⟨keeps_of_headersReach, fun keeps => headersReach_of_keeps keeps exporters⟩

/-- Lookups by app id and by names find routes of web processes only, so that the headers reach
all of them. -/
theorem headersReach_scan (rts : Routes) (order : List (Sigma fun _ : Uri => Slice))
    (isMatch : Tags → Bool) (exporters : List ExternalExporter) (headers : Header) :
    HeadersReach ((rts.scan order isMatch).map some) exporters headers := by
  refine headersReach_of_keeps ⟨by simp, Or.inr fun route routeMem => ?_⟩ exporters
  have found : route ∈ rts.scan order isMatch := by simpa using routeMem
  rw [Routes.processType_of_mem_scan found]
  decide

end Request

section

local instance asciiRuntime : GoRuntime := GoRuntime.ascii

/-- The registration of an app whose process type is that of external exporters. -/
def disguisedPayload : GoString :=
  text "\x7b\"uris\":[\"a.com\"],\"tags\":" ++
    text "\x7b\"app_id\":\"a\",\"process_type\":\"external_exporter\"\x7d\x7d"

/-- The headers of a caller who authenticates. -/
def authorization : Header :=
  AList.singleton (text "Authorization") [text "Basic dTpw"]

/-- An app that registers as an external exporter is scraped without the headers. -/
theorem not_headersReach_always :
    ¬∀ (lookup : Lookup) exporters headers,
      Request.HeadersReach lookup.entries exporters headers := by
  intro reach
  have shown : (RoutesFetcher.handleMessage Routes.empty (text "router.register")
      disguisedPayload).map (fun rts =>
        (((rts.findByRouteName (text "a.com")).elim [] rts.heap.read).filterMap id).any fun route =>
          route.tags.processType = externalExporter) = .ok true := by decide
  cases handled : RoutesFetcher.handleMessage Routes.empty (text "router.register")
      disguisedPayload with
  | error panic =>
      rw [handled] at shown
      cases shown
  | ok rts =>
      rw [handled] at shown
      simp only [Except.map, Except.ok.injEq, List.any_eq_true, List.mem_filterMap,
        decide_eq_true_eq] at shown
      rcases shown with ⟨route, ⟨entry, entryMem, rfl⟩, process⟩
      have moves : RoutesFetcher.callbackSystem.step Routes.empty
          (text "router.register", disguisedPayload) rts := handled
      rcases Request.keeps_of_headersReach (reach ⟨rts, .next (.initial rfl) moves, _,
          .byRouteName (text "a.com")⟩ [] authorization) with ⟨_, keeps⟩
      rcases keeps with none | webs
      · have present : text "Authorization" ∈ authorization := by decide
        rw [none] at present
        simp at present
      · exact webs route entryMem process

end

end Promfetcher
