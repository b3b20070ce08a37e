import Promfetcher.Fetchers.Families
import Promfetcher.Foundation.Pool
import Promfetcher.Scrapers.Scrape
import Mathlib.Data.List.Dedup
import Mathlib.Data.List.Perm.Lattice

/-!
# A metrics request

`MetricsFetcher.Metrics`, from the lookup to the merge. The loops before the
workers start are functions; the workers are a pool, whose interleavings are the
runs of the request. What the run does not decide is part of the request: the
outcome of each scrape, and the order in which ranges over maps go.
-/

namespace Promfetcher

open Foundation

/-- Which job of a request: the looked-up route with this index, or the external exporter with
this index for this app. -/
inductive JobId where
  | app (idx : Nat)
  | exporter (appID : GoString) (idx : Nat)
  deriving DecidableEq, Repr

/-- An element of the jobs channel. -/
structure Job where
  id : JobId
  route : Route

/-- The component that a route of an external exporter names. -/
def externalExporter : GoString := text "external_exporter"

/-- The loop that builds `mapTagsRoute`. -/
def mapTagsRoute (routes : List Route) : AList fun _ : GoString => Tags :=
  routes.foldl (fun tags rte => tags.insert rte.tags.appID rte.tags) ∅

/-- The tags with which external exporters are scraped for an app. -/
def exporterTags (tagRte : Tags) : Tags where
  processType := externalExporter
  component := text "promfetcher"
  spaceName := tagRte.spaceName
  organizationID := tagRte.organizationID
  organizationName := tagRte.organizationName
  sourceID := tagRte.sourceID
  appID := tagRte.appID
  appName := tagRte.appName
  spaceID := tagRte.spaceID

/-- A request whose lookup has found routes. -/
structure Request where
  routes : List Route
  exporters : List ExternalExporter
  onlyAppMetrics : Bool
  headers : Header
  outcome : JobId → ScrapeResult
  /-- The order in which the range over `mapTagsRoute` goes. -/
  appOrder : List (Sigma fun _ : GoString => Tags)
  /-- The order in which the range over the parameters of an exporter goes, for an app. -/
  paramOrder : GoString → Nat → List (Sigma fun _ : GoString => List ValueTemplate)
  routes_ne_nil : routes ≠ []
  appOrder_perm : appOrder.Perm (mapTagsRoute routes).entries
  paramOrder_perm : ∀ appID idx ee, exporters[idx]? = some ee →
    (paramOrder appID idx).Perm ee.params.entries

/-- The variables `routes` and `metricsUnmerged` before the workers start. -/
structure Setup where
  jobs : List Job
  metricsUnmerged : List Families := []

/-- The two appends of the loop over the exporters: of an error family or of a route. -/
def Setup.add (setup : Setup) : Except Families Job → Setup
  | .error newMetrics =>
      { setup with metricsUnmerged := setup.metricsUnmerged ++ [newMetrics] }
  | .ok job => { setup with jobs := setup.jobs ++ [job] }

/-- The variables that the workers share. -/
structure Results where
  errFetch : ErrFetch := {}
  metricsUnmerged : List Families

/-- What `Metrics` returns after `wg.Wait`. -/
def Results.finish (results : Results) : Except ErrFetch Families :=
  if results.errFetch.code ≠ 0 then .error results.errFetch
  else .ok (merge results.metricsUnmerged)

namespace Request

variable (request : Request)

/-- The jobs for the routes that have been looked up. -/
def appJobs : List Job :=
  request.routes.zipIdx.map fun rte => ⟨.app rte.2, rte.1⟩

/-- The conversion of an exporter to a route, and the error family where it fails. -/
def convert (tags : Tags) (ee : ExternalExporter × Nat) : Except Families Job :=
  match ee.1.toRoute (request.paramOrder tags.appID ee.2) tags with
  | .error err =>
      .error (scrapeExternalExporterError tags ee.1
        (text "error when setting external exporters routes: " ++ err))
  | .ok routeExternalExporter => .ok ⟨.exporter tags.appID ee.2, routeExternalExporter⟩

/-- The loops over the apps and the exporters. -/
def setup : Setup :=
  if request.onlyAppMetrics = false ∧ 0 < request.exporters.length then
    request.appOrder.foldl (fun setup tagRte =>
      request.exporters.zipIdx.foldl (fun setup ee =>
        setup.add (request.convert (exporterTags tagRte.2) ee)) setup)
      { jobs := request.appJobs }
  else { jobs := request.appJobs }

/-- What a worker makes of the scrape of a job: an `ErrFetch` to keep, or families to append. -/
def work (job : Job) : Except ErrFetch Families :=
  match metric job.route (request.outcome job.id) with
  | .ok newMetrics => .ok newMetrics
  | .error (.fetch errF) =>
      if request.exporters.length = 0 then .error errF
      else .ok (scrapeError job.route errF.error)
  | .error (.other error) => .ok (scrapeError job.route error)

/-- The critical section of a worker. -/
def record (results : Results) (job : Job) : Results :=
  match request.work job with
  | .error errF => { results with errFetch := errF }
  | .ok newMetrics =>
      { results with metricsUnmerged := results.metricsUnmerged ++ [newMetrics] }

/-- The assignment of a worker to its variable `headers`. -/
def enter (headers : Header) (job : Job) : Header :=
  if job.route.tags.processType = externalExporter then ∅ else headers

/-- The five workers and the sender. -/
def pool : Pool Job Header Results where
  workers := 5
  capacity := request.routes.length
  jobs := request.setup.jobs
  scope := request.headers
  shared := { metricsUnmerged := request.setup.metricsUnmerged }
  enter := enter
  effect := request.record

/-- The states of a request after its setup. -/
abbrev State := Pool.State request.pool.workers Job Header Results

/-- The request as a transition system. -/
abbrev system := request.pool.system

theorem workers_pos : 0 < request.pool.workers :=
  Nat.succ_pos 4

theorem capacity_pos : 0 < request.pool.capacity :=
  List.length_pos_of_ne_nil request.routes_ne_nil

theorem exists_complete : ∃ state, request.system.Reachable state ∧ state.waited = true :=
  Pool.exists_waited request.workers_pos request.capacity_pos (.initial rfl)

/-- A request whose ranges over maps go in the order of the lists that represent them. -/
def ofRoutes {routes : List Route} (routes_ne_nil : routes ≠ [])
    (exporters : List ExternalExporter) (headers : Header) (outcome : JobId → ScrapeResult) :
    Request where
  routes := routes
  exporters := exporters
  onlyAppMetrics := false
  headers := headers
  outcome := outcome
  appOrder := (mapTagsRoute routes).entries
  paramOrder := fun _ idx => (exporters[idx]?.map fun ee => ee.params.entries).getD []
  routes_ne_nil := routes_ne_nil
  appOrder_perm := .refl _
  paramOrder_perm := by
    intro _ idx ee found
    rw [found]
    exact .refl _

/-! ## The jobs -/

/-- What becomes of every pair of an app and an exporter. -/
def conversions : List (Except Families Job) :=
  if request.onlyAppMetrics then []
  else request.appOrder.flatMap fun tagRte =>
    request.exporters.zipIdx.map (request.convert (exporterTags tagRte.2))

/-- The error family of an external exporter whose route cannot be built. -/
def failed : Except Families Job → Option Families
  | .error newMetrics => some newMetrics
  | .ok _ => none

/-- The job of an external exporter whose route can be built. -/
def converted : Except Families Job → Option Job
  | .error _ => none
  | .ok job => some job

theorem foldl_add (conversions : List (Except Families Job)) (setup : Setup) :
    conversions.foldl Setup.add setup =
      { jobs := setup.jobs ++ conversions.filterMap converted
        metricsUnmerged := setup.metricsUnmerged ++ conversions.filterMap failed } := by
  induction conversions generalizing setup with
  | nil => simp
  | cons conversion conversions inductionHypothesis =>
      rw [List.foldl_cons, inductionHypothesis]
      cases conversion <;> simp [Setup.add, converted, failed, List.filterMap_cons]

theorem setup_eq : request.setup =
    { jobs := request.appJobs ++ request.conversions.filterMap converted
      metricsUnmerged := request.conversions.filterMap failed } := by
  have loops : request.appOrder.foldl (fun setup tagRte =>
      request.exporters.zipIdx.foldl (fun setup ee =>
        setup.add (request.convert (exporterTags tagRte.2) ee)) setup)
      { jobs := request.appJobs } =
      (request.appOrder.flatMap fun tagRte =>
        request.exporters.zipIdx.map (request.convert (exporterTags tagRte.2))).foldl Setup.add
          { jobs := request.appJobs } := by
    rw [List.foldl_flatMap]
    simp only [List.foldl_map]
  unfold setup conversions
  cases request.onlyAppMetrics with
  | true => simp
  | false =>
      by_cases some : 0 < request.exporters.length
      · rw [if_pos ⟨rfl, some⟩, loops, foldl_add]
        simp
      · have none : request.exporters = [] := by simpa using some
        simp [none]

theorem jobs_eq : request.pool.jobs =
    request.appJobs ++ request.conversions.filterMap converted := by
  rw [pool, setup_eq]

theorem converted_convert {tags : Tags} {ee : ExternalExporter × Nat} {job : Job}
    (made : converted (request.convert tags ee) = some job) :
    job.id = .exporter tags.appID ee.2 ∧ job.route.tags = tags ∧ job.route.address = ee.1.host := by
  unfold convert at made
  split at made
  · cases made
  · next route built =>
      cases made
      rcases ExternalExporter.toRoute_ok built with ⟨_, tags, address, _⟩
      exact ⟨rfl, tags, address⟩

theorem mem_appJobs {job : Job} (jobMem : job ∈ request.appJobs) :
    job.route ∈ request.routes ∧ ∃ idx, job.id = .app idx := by
  rcases List.mem_map.mp jobMem with ⟨⟨route, idx⟩, inRoutes, rfl⟩
  exact ⟨List.fst_mem_of_mem_zipIdx inRoutes, idx, rfl⟩

theorem mem_conversions {conversion : Except Families Job}
    (conversionMem : conversion ∈ request.conversions) :
    ∃ tagRte ee, conversion = request.convert (exporterTags tagRte) ee := by
  unfold conversions at conversionMem
  split at conversionMem
  · cases conversionMem
  · simp only [List.mem_flatMap, List.mem_map] at conversionMem
    rcases conversionMem with ⟨tagRte, _, ee, _, rfl⟩
    exact ⟨tagRte.2, ee, rfl⟩

theorem mem_exporterJobs {job : Job}
    (jobMem : job ∈ request.conversions.filterMap converted) :
    (∃ appID idx, job.id = .exporter appID idx) ∧
      ∃ tagRte, job.route.tags = exporterTags tagRte := by
  rcases List.mem_filterMap.mp jobMem with ⟨conversion, conversionMem, made⟩
  rcases request.mem_conversions conversionMem with ⟨tagRte, ee, rfl⟩
  rcases request.converted_convert made with ⟨id, tags, _⟩
  exact ⟨⟨_, _, id⟩, tagRte, tags⟩

theorem mem_failed {newMetrics : Families}
    (newMetricsMem : newMetrics ∈ request.conversions.filterMap failed) :
    ∃ tagRte ee err, newMetrics = scrapeExternalExporterError (exporterTags tagRte) ee err := by
  rcases List.mem_filterMap.mp newMetricsMem with ⟨conversion, conversionMem, error⟩
  rcases request.mem_conversions conversionMem with ⟨tagRte, ee, rfl⟩
  unfold convert at error
  split at error
  · cases error
    exact ⟨tagRte, ee.1, _, rfl⟩
  · cases error

/-! ## The apps -/

/-- The keys of the map from apps to tags. -/
def appIDs : List GoString :=
  (request.routes.map fun rte => rte.tags.appID).dedup

/-- The tags that the map holds for an app: those of its last route. -/
def lastTags (appID : GoString) : Tags :=
  ((request.routes.filter fun rte => rte.tags.appID == appID).getLast?.map Route.tags).getD {}

theorem lookup_mapTagsRoute (routes : List Route) (appID : GoString) :
    (mapTagsRoute routes).lookup appID =
      (routes.filter fun rte => rte.tags.appID == appID).getLast?.map Route.tags := by
  unfold mapTagsRoute
  induction routes using List.reverseRecOn with
  | nil => rfl
  | append_singleton routes last inductionHypothesis =>
      rw [List.foldl_append, List.foldl_cons, List.foldl_nil, List.filter_append]
      by_cases same : appID = last.tags.appID
      · subst same
        simp
      · have other : (last.tags.appID == appID) = false := by simpa using Ne.symm same
        rw [AList.lookup_insert_ne same, inductionHypothesis]
        simp [other]

theorem mem_mapTagsRoute (routes : List Route) (appID : GoString) :
    appID ∈ mapTagsRoute routes ↔ appID ∈ routes.map fun rte => rte.tags.appID := by
  rw [← AList.lookup_isSome, lookup_mapTagsRoute, Option.isSome_map, List.getLast?_isSome]
  simp [List.filter_eq_nil_iff]

/-- The range over `mapTagsRoute` visits every app once, with the tags of its last route. -/
theorem appOrder_flatMap {Item : Type*} (visit : Tags → List Item) :
    (request.appOrder.flatMap fun tagRte => visit tagRte.2).Perm
      (request.appIDs.flatMap fun appID => visit (request.lastTags appID)) := by
  have order := request.appOrder_perm
  have nodup : (request.appOrder.map Sigma.fst).Nodup :=
    (order.map Sigma.fst).nodup_iff.mpr (mapTagsRoute request.routes).keys_nodup
  have keys : (request.appOrder.map Sigma.fst).Perm request.appIDs := by
    refine (List.perm_ext_iff_of_nodup nodup (List.nodup_dedup _)).mpr fun appID => ?_
    rw [(order.map Sigma.fst).mem_iff, List.mem_dedup, ← mem_mapTagsRoute]
    rfl
  have values : (request.appOrder.flatMap fun tagRte => visit tagRte.2) =
      (request.appOrder.map Sigma.fst).flatMap fun appID => visit (request.lastTags appID) := by
    rw [List.flatMap_map]
    apply List.flatMap_congr
    rintro ⟨appID, tags⟩ tagRteMem
    have held : (mapTagsRoute request.routes).lookup appID = some tags :=
      AList.mem_lookup_iff.mpr (order.mem_iff.mp tagRteMem)
    rw [lookup_mapTagsRoute] at held
    simp only [lastTags, held, Option.getD_some]
  rw [values]
  exact keys.flatMap_right _

end Request

/-- An instance of an app. -/
def sampleInstance (instanceID address : String) : Route where
  tags := { appID := text "app", instanceID := text instanceID }
  address := text address

/-- Two instances of an app. -/
def sampleInstances : List Route :=
  [sampleInstance "0" "10.0.0.1:80", sampleInstance "1" "10.0.0.2:80"]

theorem sampleInstances_ne_nil : sampleInstances ≠ [] :=
  List.cons_ne_nil _ _

end Promfetcher
