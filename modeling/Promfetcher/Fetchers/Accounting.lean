import Promfetcher.Fetchers.MetricsFetcher

/-!
# What a metrics request returns

Every looked-up route, and every pair of an app and an external exporter,
contributes one map of families. The workers append the contributions of the jobs
in some order, so that the merged map holds the families of all contributions,
with the metrics of each name up to order.
-/

namespace Promfetcher

open Foundation

namespace Request

variable (request : Request)

/-- What the worker appends for a job: the metrics of its target, or the family of its error. -/
def contribution (id : JobId) (route : Route) : Families :=
  match metric route (request.outcome id) with
  | .ok newMetrics => newMetrics
  | .error err => scrapeError route err.error

/-- What an external exporter comes to for the tags of an app, which may be the error of its route.
-/
def exporterContribution (tags : Tags) (ee : ExternalExporter × Nat) : Families :=
  match ee.1.toRoute (request.paramOrder tags.appID ee.2) tags with
  | .error err =>
      scrapeExternalExporterError tags ee.1
        (text "error when setting external exporters routes: " ++ err)
  | .ok route => request.contribution (.exporter tags.appID ee.2) route

/-- One contribution for every looked-up route and, unless only the app is asked for, one for
every app and exporter. -/
def contributions : List Families :=
  request.routes.zipIdx.map (fun rte => request.contribution (.app rte.2) rte.1) ++
    if request.onlyAppMetrics then []
    else request.appIDs.flatMap fun appID =>
      request.exporters.zipIdx.map
        (request.exporterContribution (exporterTags (request.lastTags appID)))

/-- The scrape of the job makes the request fail. -/
def Fails (job : Job) : Prop :=
  request.exporters = [] ∧
    ∃ appIdOrPath endpoint, request.outcome job.id = .noEndpointFound appIdOrPath endpoint

/-- The text of the error of a job, if it fails. -/
def failure (job : Job) : Option GoString :=
  match metric job.route (request.outcome job.id) with
  | .ok _ => none
  | .error err => some err.error

/-! ## One job -/

theorem contribution_cases (job : Job) :
    (∃ metricsGroup, request.outcome job.id = .exposition metricsGroup ∧
      request.failure job = none ∧
      request.contribution job.id job.route =
        mapValues (MetricFamily.relabel job.route) metricsGroup) ∨
    ∃ err, (∀ metricsGroup, request.outcome job.id ≠ .exposition metricsGroup) ∧
      request.failure job = some err ∧
      request.contribution job.id job.route = scrapeError job.route err := by
  unfold failure contribution
  cases request.outcome job.id with
  | exposition metricsGroup => exact Or.inl ⟨metricsGroup, rfl, rfl, rfl⟩
  | noEndpointFound appIdOrPath endpoint =>
      exact Or.inr ⟨_, fun _ => ScrapeResult.noConfusion, rfl, rfl⟩
  | failure error => exact Or.inr ⟨_, fun _ => ScrapeResult.noConfusion, rfl, rfl⟩

theorem work_of_not_fails {job : Job} (keeps : ¬request.Fails job) :
    request.work job = .ok (request.contribution job.id job.route) := by
  unfold work contribution
  cases outcome : request.outcome job.id with
  | exposition metricsGroup => rfl
  | failure error => rfl
  | noEndpointFound appIdOrPath endpoint =>
      have some : request.exporters ≠ [] := fun none => keeps ⟨none, _, _, outcome⟩
      simp [metric, some, ScrapeError.error]

theorem work_of_fails {job : Job} (fails : request.Fails job) :
    ∃ errF, request.work job = .error errF ∧ errF.code = 406 := by
  rcases fails with ⟨none, appIdOrPath, endpoint, outcome⟩
  refine ⟨errNoEndpointFound appIdOrPath endpoint, ?_, errNoEndpointFound_code _ _⟩
  simp [work, outcome, metric, none]

theorem foldl_record_code {order : List Job} (results : Results)
    (fails : results.errFetch.code = 406 ∨ ∃ job ∈ order, request.Fails job) :
    (order.foldl request.record results).errFetch.code = 406 := by
  induction order generalizing results with
  | nil => simpa using fails
  | cons job order inductionHypothesis =>
      rw [List.foldl_cons]
      apply inductionHypothesis
      by_cases here : request.Fails job
      · rcases request.work_of_fails here with ⟨errF, worked, code⟩
        left
        simpa only [record, worked] using code
      · simp only [record, request.work_of_not_fails here]
        simpa [here] using fails

theorem foldl_record {order : List Job} (results : Results)
    (keeps : ∀ job ∈ order, ¬request.Fails job) :
    order.foldl request.record results =
      { results with
        metricsUnmerged := results.metricsUnmerged ++
          order.map fun job => request.contribution job.id job.route } := by
  induction order generalizing results with
  | nil => simp
  | cons job order inductionHypothesis =>
      rw [List.foldl_cons, inductionHypothesis _ fun other otherMem =>
        keeps other (List.mem_cons_of_mem _ otherMem)]
      simp [record, request.work_of_not_fails (keeps job List.mem_cons_self)]

/-! ## All jobs -/

/-- What an external exporter comes to once its route has been tried. -/
def conversionContribution : Except Families Job → Families
  | .error newMetrics => newMetrics
  | .ok job => request.contribution job.id job.route

theorem conversionContribution_convert (tags : Tags) (ee : ExternalExporter × Nat) :
    request.conversionContribution (request.convert tags ee) =
      request.exporterContribution tags ee := by
  unfold convert exporterContribution
  cases ee.1.toRoute (request.paramOrder tags.appID ee.2) tags <;> rfl

theorem conversions_perm (conversions : List (Except Families Job)) :
    (conversions.filterMap failed ++ (conversions.filterMap converted).map fun job =>
        request.contribution job.id job.route).Perm
      (conversions.map request.conversionContribution) := by
  induction conversions with
  | nil => exact .nil
  | cons conversion conversions inductionHypothesis =>
      cases conversion with
      | error newMetrics => exact inductionHypothesis.cons _
      | ok job => exact List.perm_middle.trans (inductionHypothesis.cons _)

/-- The families appended before the workers start and those of the jobs are the contributions. -/
theorem contributions_perm :
    (request.setup.metricsUnmerged ++ request.pool.jobs.map fun job =>
      request.contribution job.id job.route).Perm request.contributions := by
  have exporters : (request.conversions.map request.conversionContribution).Perm
      (if request.onlyAppMetrics then []
        else request.appIDs.flatMap fun appID =>
          request.exporters.zipIdx.map
            (request.exporterContribution (exporterTags (request.lastTags appID)))) := by
    unfold conversions
    cases request.onlyAppMetrics with
    | true => simp
    | false =>
        have each (tags : Tags) :
            (request.exporters.zipIdx.map (request.convert tags)).map
                request.conversionContribution =
              request.exporters.zipIdx.map (request.exporterContribution tags) := by
          simp [conversionContribution_convert]
        simp only [Bool.false_eq_true, if_false, List.map_flatMap, each]
        exact request.appOrder_flatMap fun tags =>
          request.exporters.zipIdx.map (request.exporterContribution (exporterTags tags))
  rw [setup_eq, jobs_eq, List.map_append]
  simp only [contributions, appJobs, List.map_map, Function.comp_def]
  refine .trans ?_ (exporters.append_left _)
  refine .trans ?_ ((request.conversions_perm request.conversions).append_left _)
  rw [← List.append_assoc, ← List.append_assoc]
  exact List.perm_append_comm.append_right _

/-- If a run ends without an error, no job has failed, and the maps to merge are the
contributions in some order. -/
theorem metricsUnmerged_of_finish {order : List Job} {result : Families}
    (jobs : order.Perm request.pool.jobs)
    (finished : (order.foldl request.record request.pool.shared).finish = .ok result) :
    (∀ job ∈ request.pool.jobs, ¬request.Fails job) ∧
      ∃ unmerged : List Families, unmerged.Perm request.contributions ∧
        result = merge unmerged := by
  have keeps : ∀ job ∈ order, ¬request.Fails job := by
    intro job jobMem fails
    have code := request.foldl_record_code request.pool.shared
      (Or.inr ⟨job, jobMem, fails⟩)
    simp [Results.finish, code] at finished
  refine ⟨fun job jobMem => keeps job (jobs.mem_iff.mpr jobMem),
    request.setup.metricsUnmerged ++ order.map fun job =>
      request.contribution job.id job.route, ?_, ?_⟩
  · exact ((jobs.map _).append_left _).trans request.contributions_perm
  · rw [request.foldl_record _ keeps] at finished
    simp only [Results.finish, pool] at finished
    simpa using finished.symm

/-! ## The request -/

/-- What holds of the wait group, the jobs and the result in a state of a request. -/
structure Accounts (state : request.State) : Prop where
  counter_nonneg : 0 ≤ state.counter
  not_stuck : state.waited = false → ∃ event after, request.system.step state event after
  contributed : state.waited = true → ∃ order : List Job, order.Perm request.pool.jobs ∧
    state.shared = order.foldl request.record request.pool.shared
  names : state.waited = true → ∀ result, state.shared.finish = .ok result →
    ∀ name, name ∈ result ↔ ∃ families ∈ request.contributions, name ∈ families
  metrics : state.waited = true → ∀ result, state.shared.finish = .ok result →
    ∀ name, (metricsOf name result).Perm (request.contributions.flatMap (metricsOf name))

variable {request}

theorem finish_of_waited {state : request.State} (reached : request.system.Reachable state)
    (waited : state.waited = true) {result : Families}
    (finished : state.shared.finish = .ok result) :
    (∀ job ∈ request.pool.jobs, ¬request.Fails job) ∧
      ∃ unmerged : List Families, unmerged.Perm request.contributions ∧
        result = merge unmerged := by
  rcases Pool.effects_of_waited reached waited with ⟨order, jobs, shared⟩
  exact request.metricsUnmerged_of_finish jobs (shared ▸ finished)

theorem finish_of_keeps {state : request.State} (reached : request.system.Reachable state)
    (waited : state.waited = true) (keeps : ∀ job ∈ request.pool.jobs, ¬request.Fails job) :
    ∃ result, state.shared.finish = .ok result := by
  rcases Pool.effects_of_waited reached waited with ⟨order, jobs, shared⟩
  have folded := request.foldl_record request.pool.shared fun job jobMem =>
    keeps job (jobs.mem_iff.mp jobMem)
  have code : state.shared.errFetch.code = 0 := by
    rw [shared]
    change (order.foldl request.record request.pool.shared).errFetch.code = 0
    rw [folded]
    rfl
  exact ⟨merge state.shared.metricsUnmerged, if_neg (not_not.mpr code)⟩

/-- Every request accounts exactly for its contributions, in every interleaving. -/
theorem accounts (request : Request) (state : {state // request.system.Reachable state}) :
    Accounts request state.val where
  counter_nonneg := Pool.counter_nonneg state.property
  not_stuck := Pool.progress request.workers_pos request.capacity_pos state.property
  contributed := Pool.effects_of_waited state.property
  names := by
    intro waited result finished name
    rcases finish_of_waited state.property waited finished with ⟨_, unmerged, perm, rfl⟩
    rw [mem_merge]
    exact exists_congr fun families => and_congr_left' perm.mem_iff
  metrics := by
    intro waited result finished name
    rcases finish_of_waited state.property waited finished with ⟨_, unmerged, perm, rfl⟩
    rw [metricsOf_merge]
    exact perm.flatMap_right _

end Request

end Promfetcher
