import Promfetcher.Fetchers.Accounting

/-!
# Duplicate series

Two metrics of a family are the same series if they have the same set of labels.
`Metric` removes nine label names from the metrics of a target and adds up to nine
labels of its route, without those of the instance if the route has no instance
id. The merged map has no duplicate series exactly if four things hold, which are
the fields of `DistinctSeries`: the series of each target stay different without
the nine labels, two targets that get the same labels have no series in common,
and no two errors are reported with the same labels.
-/

namespace Promfetcher

open Foundation

/-- The metrics have the same set of labels. -/
def Metric.SameSeries (metric other : Metric) : Prop :=
  ∀ pair, pair ∈ metric.label ↔ pair ∈ other.label

/-- No family has two metrics of the same series. -/
def NoDuplicates (families : Families) : Prop :=
  ∀ name, (metricsOf name families).Pairwise fun metric other => ¬metric.SameSeries other

/-- No family of the two maps has a series in common. -/
def Apart (families others : Families) : Prop :=
  ∀ name, ∀ metric ∈ metricsOf name families, ∀ other ∈ metricsOf name others,
    ¬metric.SameSeries other

theorem Metric.SameSeries.symm {metric other : Metric} (same : metric.SameSeries other) :
    other.SameSeries metric :=
  fun pair => (same pair).symm

theorem pairwise_forall {Item Index : Type*} {relation : Index → Item → Item → Prop}
    {list : List Item} :
    (∀ index, list.Pairwise (relation index)) ↔
      list.Pairwise fun item other => ∀ index, relation index item other := by
  induction list with
  | nil => simp
  | cons item list inductionHypothesis =>
      simp only [List.pairwise_cons, forall_and, inductionHypothesis]
      exact and_congr_left' ⟨fun all other otherMem index => all index other otherMem,
        fun all index other otherMem => all other otherMem index⟩

/-- A merged map has no duplicates if the maps have none and are apart from each other. -/
theorem noDuplicates_merge (maps : List Families) :
    NoDuplicates (merge maps) ↔
      (∀ families ∈ maps, NoDuplicates families) ∧ maps.Pairwise Apart := by
  simp only [NoDuplicates, metricsOf_merge, List.pairwise_flatMap, forall_and]
  refine and_congr ?_ pairwise_forall
  exact ⟨fun all families familiesMem name => all name families familiesMem,
    fun all name families familiesMem => all families familiesMem name⟩

theorem noDuplicates_merge_of_perm {maps others : List Families} (perm : maps.Perm others) :
    NoDuplicates (merge maps) ↔ NoDuplicates (merge others) := by
  have symm {metric other : Metric} (differ : ¬metric.SameSeries other) :
      ¬other.SameSeries metric :=
    fun same => differ same.symm
  simp only [NoDuplicates, metricsOf_merge]
  exact forall_congr' fun name => (perm.flatMap_right _).pairwise_iff symm

/-! ## Labels -/

/-- The metric without the labels that `Metric` removes. -/
def Metric.clean (metric : Metric) : Metric :=
  { metric with label := cleanMetricLabels metric.label instanceLabels }

theorem mem_cleanMetricLabels {pair : LabelPair} {labels : List LabelPair}
    {names : List GoString} :
    pair ∈ cleanMetricLabels labels names ↔
      pair ∈ labels ∧ ∀ name ∈ names, pair.name ≠ some name := by
  simp [cleanMetricLabels]

theorem name_of_mem_routeLabels {route : Route} {pair : LabelPair}
    (pairMem : pair ∈ routeLabels route) : ∃ name ∈ instanceLabels, pair.name = some name := by
  unfold routeLabels appLabels at pairMem
  split at pairMem <;>
    simp only [List.mem_append, List.mem_cons, List.not_mem_nil, or_false] at pairMem
  · rcases pairMem with (rfl | rfl | rfl | rfl | rfl | rfl) | rfl | rfl | rfl <;>
      exact ⟨_, by simp [instanceLabels], rfl⟩
  · rcases pairMem with rfl | rfl | rfl | rfl | rfl | rfl <;>
      exact ⟨_, by simp [instanceLabels], rfl⟩

theorem mem_relabel {route : Route} {metric : Metric} {pair : LabelPair} :
    pair ∈ (metric.relabel route).label ↔ pair ∈ metric.clean.label ∨ pair ∈ routeLabels route :=
  List.mem_append

theorem not_mem_routeLabels {route : Route} {metric : Metric} {pair : LabelPair}
    (kept : pair ∈ metric.clean.label) : pair ∉ routeLabels route := by
  intro added
  rcases name_of_mem_routeLabels added with ⟨name, nameMem, named⟩
  exact (mem_cleanMetricLabels.mp kept).2 name nameMem named

/-- Two metrics are the same series after `Metric` if they were without the nine labels, and their
routes add the same labels. -/
theorem relabel_sameSeries_iff {route other : Route} {metric otherMetric : Metric} :
    (metric.relabel route).SameSeries (otherMetric.relabel other) ↔
      (∀ pair, pair ∈ routeLabels route ↔ pair ∈ routeLabels other) ∧
        metric.clean.SameSeries otherMetric.clean := by
  constructor
  · intro same
    have added {route other : Route} {metric otherMetric : Metric}
        (same : (metric.relabel route).SameSeries (otherMetric.relabel other))
        {pair : LabelPair} (pairMem : pair ∈ routeLabels route) : pair ∈ routeLabels other := by
      rcases mem_relabel.mp ((same pair).mp (mem_relabel.mpr (Or.inr pairMem))) with kept | added
      · exact absurd pairMem (not_mem_routeLabels kept)
      · exact added
    have kept {route other : Route} {metric otherMetric : Metric}
        (same : (metric.relabel route).SameSeries (otherMetric.relabel other))
        {pair : LabelPair} (pairMem : pair ∈ metric.clean.label) :
        pair ∈ otherMetric.clean.label := by
      rcases mem_relabel.mp ((same pair).mp (mem_relabel.mpr (Or.inl pairMem))) with kept | added
      · exact kept
      · exact absurd added (not_mem_routeLabels pairMem)
    exact ⟨fun pair => ⟨added same, added same.symm⟩, fun pair => ⟨kept same, kept same.symm⟩⟩
  · rintro ⟨added, kept⟩ pair
    rw [mem_relabel, mem_relabel, added pair, kept pair]

theorem eq_of_same_labels {labels others : List LabelPair}
    (names : labels.map LabelPair.name = others.map LabelPair.name)
    (nodup : (labels.map LabelPair.name).Nodup)
    (same : ∀ pair, pair ∈ labels ↔ pair ∈ others) : labels = others := by
  induction labels generalizing others with
  | nil =>
      rw [List.map_nil, eq_comm, List.map_eq_nil_iff] at names
      exact names.symm
  | cons label labels inductionHypothesis =>
      cases others with
      | nil => simp at names
      | cons other others =>
          simp only [List.map_cons, List.cons.injEq] at names
          rw [List.map_cons, List.nodup_cons] at nodup
          have absent : label.name ∉ others.map LabelPair.name := names.2 ▸ nodup.1
          have head : label = other := by
            rcases List.mem_cons.mp ((same label).mp List.mem_cons_self) with equal | inTail
            · exact equal
            · exact absurd (List.mem_map_of_mem inTail) absent
          subst head
          rw [inductionHypothesis names.2 nodup.2]
          intro pair
          have iff := same pair
          simp only [List.mem_cons] at iff
          constructor
          · intro pairMem
            refine (iff.mp (Or.inr pairMem)).resolve_left ?_
            rintro rfl
            exact nodup.1 (List.mem_map_of_mem pairMem)
          · intro pairMem
            refine (iff.mpr (Or.inr pairMem)).resolve_left ?_
            rintro rfl
            exact absent (List.mem_map_of_mem pairMem)

theorem map_name_routeLabels (route : Route) :
    (routeLabels route).map LabelPair.name =
      ((appLabels route.tags).map LabelPair.name) ++
        if route.tags.instanceID ≠ [] then
          [some (text "index"), some (text "instance_id"), some (text "instance")]
        else [] := by
  unfold routeLabels
  split <;> simp [ptrString]

theorem index_mem_routeLabels (route : Route) :
    some (text "index") ∈ (routeLabels route).map LabelPair.name ↔ route.tags.instanceID ≠ [] := by
  have absent : some (text "index") ∉ (appLabels route.tags).map LabelPair.name := by
    simp only [appLabels, ptrString, List.map_cons, List.map_nil]
    decide
  rw [map_name_routeLabels, List.mem_append]
  constructor
  · rintro (inApp | inInstance)
    · exact absurd inApp absent
    · split at inInstance
      · next present => exact present
      · cases inInstance
  · intro present
    right
    simp [present]

theorem routeLabels_eq_iff {route other : Route} :
    (∀ pair, pair ∈ routeLabels route ↔ pair ∈ routeLabels other) ↔
      appLabels route.tags = appLabels other.tags ∧
        route.tags.instanceID = other.tags.instanceID ∧
          (route.tags.instanceID ≠ [] → route.address = other.address) := by
  constructor
  · intro same
    have names : ∀ name, name ∈ (routeLabels route).map LabelPair.name ↔
        name ∈ (routeLabels other).map LabelPair.name := by
      intro name
      simp only [List.mem_map, same]
    have index : route.tags.instanceID ≠ [] ↔ other.tags.instanceID ≠ [] := by
      rw [← index_mem_routeLabels, names, index_mem_routeLabels]
    have nodup : ((routeLabels route).map LabelPair.name).Nodup := by
      rw [map_name_routeLabels]
      simp only [appLabels, ptrString, List.map_cons, List.map_nil]
      split <;> decide
    have equal : routeLabels route = routeLabels other := by
      refine eq_of_same_labels ?_ nodup same
      rw [map_name_routeLabels, map_name_routeLabels]
      simp only [index]
      rfl
    unfold routeLabels at equal
    by_cases present : route.tags.instanceID = []
    · have otherPresent : other.tags.instanceID = [] := by
        by_contra some
        exact index.mpr some present
      simp only [present, otherPresent, ne_eq, not_true_eq_false, if_false,
        List.append_nil] at equal
      exact ⟨equal, by rw [present, otherPresent], fun some => absurd present some⟩
    · have otherPresent := index.mp present
      simp only [if_pos present, if_pos otherPresent] at equal
      rcases List.append_inj equal rfl with ⟨app, rest⟩
      simp only [ptrString, List.cons.injEq, LabelPair.mk.injEq, Option.some.injEq] at rest
      exact ⟨app, rest.1.2, fun _ => rest.2.2.1.2⟩
  · rintro ⟨app, index, address⟩ pair
    have equal : routeLabels route = routeLabels other := by
      unfold routeLabels
      rw [app, index]
      by_cases present : other.tags.instanceID = []
      · simp [present]
      · rw [address (index ▸ present)]
    rw [equal]

/-! ## Errors -/

theorem mem_counterLabels {constLabels : List (GoString × GoString)} {pair : LabelPair} :
    pair ∈ counterLabels constLabels ↔
      constLabels.all (fun label => validString label.2) = true ∧
        ∃ label ∈ constLabels, pair = ⟨some label.1, some label.2⟩ := by
  unfold counterLabels
  split
  · next valid =>
      simp only [List.mem_map, valid, true_and]
      exact exists_congr fun label => and_congr_right' eq_comm
  · next invalid => simp [invalid]

theorem errorMetric_sameSeries_iff {constLabels others : List (GoString × GoString)}
    (names : constLabels.map Prod.fst = others.map Prod.fst)
    (nodup : (constLabels.map Prod.fst).Nodup) (nonempty : constLabels ≠ []) :
    (errorMetric constLabels).SameSeries (errorMetric others) ↔
      counterLabels constLabels = counterLabels others := by
  refine ⟨fun same => ?_, fun equal pair => by simp only [errorMetric, equal]⟩
  have some (labels : List (GoString × GoString)) (nonempty : labels ≠ [])
      (valid : labels.all (fun label => validString label.2) = true) :
      ∃ pair, pair ∈ counterLabels labels := by
    rcases List.exists_mem_of_ne_nil labels nonempty with ⟨label, labelMem⟩
    exact ⟨_, mem_counterLabels.mpr ⟨valid, label, labelMem, rfl⟩⟩
  have othersNonempty : others ≠ [] := by
    rintro rfl
    exact nonempty (List.map_eq_nil_iff.mp names)
  by_cases valid : constLabels.all (fun label => validString label.2) = true
  · rcases some constLabels nonempty valid with ⟨pair, pairMem⟩
    have otherValid := (mem_counterLabels.mp ((same pair).mp pairMem)).1
    refine eq_of_same_labels ?_ ?_ same
    · rw [counterLabels_of_valid valid, counterLabels_of_valid otherValid]
      simpa [Function.comp_def, ptrString] using congrArg (List.map Option.some) names
    · rw [counterLabels_of_valid valid]
      simpa [Function.comp_def, ptrString] using
        nodup.map (Option.some_injective GoString)
  · have otherInvalid : ¬others.all (fun label => validString label.2) = true := by
      intro otherValid
      rcases some others othersNonempty otherValid with ⟨pair, pairMem⟩
      exact valid (mem_counterLabels.mp ((same pair).mpr pairMem)).1
    rw [counterLabels, counterLabels, if_neg valid, if_neg otherInvalid]

theorem relabel_not_sameSeries_errorMetric {route : Route} {metric : Metric}
    {constLabels : List (GoString × GoString)} {index : GoString}
    (indexed : (text "index", index) ∈ constLabels)
    (differs : route.tags.instanceID ≠ [] →
      (text "index", route.tags.instanceID) ∈ constLabels →
        (text "instance", route.address) ∉ constLabels) :
    ¬(metric.relabel route).SameSeries (errorMetric constLabels) := by
  intro same
  have shown (name value : GoString)
      (added : ⟨some name, some value⟩ ∈ routeLabels route) :
      constLabels.all (fun label => validString label.2) = true ∧ (name, value) ∈ constLabels := by
    rcases mem_counterLabels.mp ((same _).mp (mem_relabel.mpr (Or.inr added))) with
      ⟨valid, ⟨_, _⟩, labelMem, equal⟩
    cases equal
    exact ⟨valid, labelMem⟩
  have valid := (shown (text "organization_id") route.tags.organizationID
    (by simp [routeLabels, appLabels, ptrString])).1
  by_cases absent : route.tags.instanceID = []
  · -- The error has an index, and the metric has none.
    have inMetric := (same _).mpr (mem_counterLabels.mpr ⟨valid, _, indexed, rfl⟩)
    rcases mem_relabel.mp inMetric with kept | added
    · exact (mem_cleanMetricLabels.mp kept).2 (text "index") (by simp [instanceLabels]) rfl
    · exact (index_mem_routeLabels route).mp (List.mem_map_of_mem added) absent
  · refine differs absent (shown _ _ ?_).2 (shown _ _ ?_).2 <;>
      simp [routeLabels, absent, ptrString]

/-! ## Families apart -/

theorem noDuplicates_errorFamily (family help : GoString)
    (constLabels : List (GoString × GoString)) :
    NoDuplicates (errorFamily family help constLabels) := by
  intro name
  rw [metricsOf_errorFamily]
  split
  · exact List.pairwise_singleton _ _
  · exact .nil

theorem apart_errorFamily_iff {family help otherHelp : GoString}
    {constLabels others : List (GoString × GoString)} :
    Apart (errorFamily family help constLabels) (errorFamily family otherHelp others) ↔
      ¬(errorMetric constLabels).SameSeries (errorMetric others) := by
  constructor
  · intro apart same
    exact apart family (errorMetric constLabels) (by simp [metricsOf_errorFamily])
      (errorMetric others) (by simp [metricsOf_errorFamily]) same
  · intro differ name metric metricMem other otherMem
    rw [metricsOf_errorFamily] at metricMem otherMem
    split at metricMem
    · next here =>
        rw [if_pos here] at otherMem
        rw [List.mem_singleton.mp metricMem, List.mem_singleton.mp otherMem]
        exact differ
    · cases metricMem

theorem apart_errorFamily_of_ne {family otherFamily help otherHelp : GoString}
    {constLabels others : List (GoString × GoString)} (differ : family ≠ otherFamily) :
    Apart (errorFamily family help constLabels) (errorFamily otherFamily otherHelp others) := by
  intro name metric metricMem other otherMem
  rw [metricsOf_errorFamily] at metricMem otherMem
  split at metricMem
  · next here =>
      rw [if_neg (here ▸ differ)] at otherMem
      cases otherMem
  · cases metricMem

theorem apart_relabel_errorFamily {route : Route} {metricsGroup : Families}
    {family help index : GoString} {constLabels : List (GoString × GoString)}
    (indexed : (text "index", index) ∈ constLabels)
    (differs : route.tags.instanceID ≠ [] →
      (text "index", route.tags.instanceID) ∈ constLabels →
        (text "instance", route.address) ∉ constLabels) :
    Apart (mapValues (MetricFamily.relabel route) metricsGroup)
      (errorFamily family help constLabels) := by
  intro name metric metricMem other otherMem
  rw [metricsOf_mapValues] at metricMem
  rw [metricsOf_errorFamily] at otherMem
  rcases List.mem_map.mp metricMem with ⟨original, _, rfl⟩
  split at otherMem
  · rw [List.mem_singleton.mp otherMem]
    exact relabel_not_sameSeries_errorMetric indexed differs
  · cases otherMem

theorem Apart.symm {families others : Families} (apart : Apart families others) :
    Apart others families :=
  fun name metric metricMem other otherMem same =>
    apart name other otherMem metric metricMem same.symm

theorem apart_relabel_iff {route other : Route} {metricsGroup otherGroup : Families} :
    Apart (mapValues (MetricFamily.relabel route) metricsGroup)
        (mapValues (MetricFamily.relabel other) otherGroup) ↔
      ((∀ pair, pair ∈ routeLabels route ↔ pair ∈ routeLabels other) →
        ∀ name, ∀ metric ∈ metricsOf name metricsGroup,
          ∀ otherMetric ∈ metricsOf name otherGroup,
            ¬metric.clean.SameSeries otherMetric.clean) := by
  simp only [Apart, metricsOf_mapValues, List.forall_mem_map, relabel_sameSeries_iff, not_and]
  constructor
  · intro apart added name metric metricMem otherMetric otherMem
    exact apart name metric metricMem otherMetric otherMem added
  · intro apart name metric metricMem otherMetric otherMem added
    exact apart added name metric metricMem otherMetric otherMem

theorem noDuplicates_relabel_iff {route : Route} {metricsGroup : Families} :
    NoDuplicates (mapValues (MetricFamily.relabel route) metricsGroup) ↔
      ∀ name, (metricsOf name metricsGroup).Pairwise fun metric other =>
        ¬metric.clean.SameSeries other.clean := by
  simp only [NoDuplicates, metricsOf_mapValues, List.pairwise_map, relabel_sameSeries_iff,
    true_and, implies_true, iff_self]

/-! ## The request -/

namespace Request

variable (request : Request)

/-- Two routes with an instance ID each differ in their address. -/
def AddressApart (job other : Job) : Prop :=
  job.route.tags.instanceID ≠ [] → other.route.tags.instanceID ≠ [] →
    job.route.address ≠ other.route.address

/-- The targets of two jobs that belong to the same app without an instance id have no series in
common. -/
def TargetsApart (job other : Job) : Prop :=
  ∀ metricsGroup otherGroup, request.outcome job.id = .exposition metricsGroup →
    request.outcome other.id = .exposition otherGroup →
      job.route.tags.instanceID = [] → other.route.tags.instanceID = [] →
        appLabels job.route.tags = appLabels other.route.tags →
          ∀ name, ∀ metric ∈ metricsOf name metricsGroup,
            ∀ otherMetric ∈ metricsOf name otherGroup,
              ¬metric.clean.SameSeries otherMetric.clean

/-- Two jobs that fail are told apart by the labels of their errors. -/
def ErrorsApart (job other : Job) : Prop :=
  ∀ err, request.failure job = some err → ∀ otherErr, request.failure other = some otherErr →
    counterLabels (scrapeErrorLabels job.route err) ≠
      counterLabels (scrapeErrorLabels other.route otherErr)

/-- What a metrics request needs for its result to have no duplicate series. -/
structure DistinctSeries : Prop where
  own : ∀ job ∈ request.pool.jobs, ∀ metricsGroup,
    request.outcome job.id = .exposition metricsGroup →
      ∀ name, (metricsOf name metricsGroup).Pairwise fun metric other =>
        ¬metric.clean.SameSeries other.clean
  targets : request.pool.jobs.Pairwise request.TargetsApart
  errors : request.pool.jobs.Pairwise request.ErrorsApart
  exporterErrors : (request.conversions.filterMap failed).Nodup

theorem apart_scrapeError_iff {route other : Route} {err otherErr : GoString} :
    Apart (scrapeError route err) (scrapeError other otherErr) ↔
      counterLabels (scrapeErrorLabels route err) ≠
        counterLabels (scrapeErrorLabels other otherErr) := by
  unfold scrapeError
  have names : (scrapeErrorLabels route err).map Prod.fst =
      (scrapeErrorLabels other otherErr).map Prod.fst := rfl
  have nodup : ((scrapeErrorLabels route err).map Prod.fst).Nodup := by
    simp only [scrapeErrorLabels, List.map_cons, List.map_nil]
    decide
  rw [apart_errorFamily_iff, errorMetric_sameSeries_iff names nodup (List.cons_ne_nil _ _)]

theorem apart_relabel_scrapeError {job other : Job} (addresses : AddressApart job other)
    (metricsGroup : Families) (err : GoString) :
    Apart (mapValues (MetricFamily.relabel job.route) metricsGroup)
      (scrapeError other.route err) := by
  have indexed :
      (text "index", other.route.tags.instanceID) ∈ scrapeErrorLabels other.route err := by
    simp [scrapeErrorLabels]
  apply apart_relabel_errorFamily indexed
  intro present index address
  have sameIndex : job.route.tags.instanceID = other.route.tags.instanceID := by
    simpa +decide [scrapeErrorLabels] using index
  have sameAddress : job.route.address = other.route.address := by
    simpa +decide [scrapeErrorLabels] using address
  exact addresses present (sameIndex ▸ present) sameAddress

theorem apart_contribution_iff {job other : Job} (addresses : AddressApart job other) :
    Apart (request.contribution job.id job.route) (request.contribution other.id other.route) ↔
      request.TargetsApart job other ∧ request.ErrorsApart job other := by
  rcases request.contribution_cases job with
      ⟨metricsGroup, outcome, failure, contribution⟩ | ⟨err, outcome, failure, contribution⟩ <;>
    rcases request.contribution_cases other with
      ⟨otherGroup, otherOutcome, otherFailure, otherContribution⟩ |
      ⟨otherErr, otherOutcome, otherFailure, otherContribution⟩ <;>
    rw [contribution, otherContribution]
  · have errors : request.ErrorsApart job other := by
      intro err failed
      rw [failure] at failed
      cases failed
    rw [apart_relabel_iff, routeLabels_eq_iff, and_iff_left errors]
    constructor
    · intro apart group otherGroup' isGroup isOtherGroup absent otherAbsent app
      rw [outcome] at isGroup
      rw [otherOutcome] at isOtherGroup
      cases isGroup
      cases isOtherGroup
      exact apart ⟨app, by rw [absent, otherAbsent], fun present => absurd absent present⟩
    · rintro apart ⟨app, index, address⟩
      by_cases absent : job.route.tags.instanceID = []
      · exact apart _ _ outcome otherOutcome absent (index ▸ absent) app
      · exact absurd (address absent) (addresses absent (index ▸ absent))
  · refine iff_of_true (apart_relabel_scrapeError addresses _ _) ⟨?_, ?_⟩
    · intro group otherGroup _ isOtherGroup
      exact absurd isOtherGroup (otherOutcome otherGroup)
    · intro err failed
      rw [failure] at failed
      cases failed
  · have swapped : AddressApart other job := fun otherPresent present same =>
      addresses present otherPresent same.symm
    refine iff_of_true (apart_relabel_scrapeError swapped _ _).symm ⟨?_, ?_⟩
    · intro group otherGroup isGroup
      exact absurd isGroup (outcome group)
    · intro err _ otherErr otherFailed
      rw [otherFailure] at otherFailed
      cases otherFailed
  · have targets : request.TargetsApart job other := by
      intro group otherGroup isGroup
      exact absurd isGroup (outcome group)
    rw [apart_scrapeError_iff, and_iff_right targets]
    constructor
    · intro differ someErr isErr someOtherErr isOtherErr
      rw [failure, Option.some.injEq] at isErr
      rw [otherFailure, Option.some.injEq] at isOtherErr
      rwa [← isErr, ← isOtherErr]
    · exact fun differ => differ err failure otherErr otherFailure

theorem apart_scrapeExternalExporterError_iff {tags other : Tags} {ee otherEe : ExternalExporter}
    {err otherErr : GoString} :
    Apart (scrapeExternalExporterError tags ee err)
        (scrapeExternalExporterError other otherEe otherErr) ↔
      scrapeExternalExporterError tags ee err ≠
        scrapeExternalExporterError other otherEe otherErr := by
  have names : (scrapeExternalExporterErrorLabels tags ee err).map Prod.fst =
      (scrapeExternalExporterErrorLabels other otherEe otherErr).map Prod.fst := rfl
  have nodup : ((scrapeExternalExporterErrorLabels tags ee err).map Prod.fst).Nodup := by
    simp only [scrapeExternalExporterErrorLabels, List.map_cons, List.map_nil]
    decide
  have same := errorMetric_sameSeries_iff names nodup (List.cons_ne_nil _ _)
  unfold scrapeExternalExporterError
  rw [apart_errorFamily_iff, same]
  refine not_congr ⟨fun labels => ?_, fun families => same.mp ?_⟩
  · unfold errorFamily errorMetric
    rw [labels]
  · have metrics := congrArg (metricsOf scrapeExternalExporterErrorName) families
    simp only [metricsOf_errorFamily, if_true, List.cons.injEq, and_true] at metrics
    rw [metrics]
    exact fun _ => Iff.rfl

theorem apart_of_mem_failed {newMetrics : Families}
    (newMetricsMem : newMetrics ∈ request.conversions.filterMap failed) (job : Job) :
    Apart newMetrics (request.contribution job.id job.route) := by
  rcases request.mem_failed newMetricsMem with ⟨tagRte, ee, err, rfl⟩
  rcases request.contribution_cases job with
    ⟨metricsGroup, _, _, contribution⟩ | ⟨jobErr, _, _, contribution⟩
  · rw [contribution]
    have indexed : (text "index", (exporterTags tagRte).instanceID) ∈
        scrapeExternalExporterErrorLabels (exporterTags tagRte) ee err := by
      simp [scrapeExternalExporterErrorLabels]
    apply Apart.symm
    apply apart_relabel_errorFamily indexed
    intro present index
    have none : job.route.tags.instanceID = (exporterTags tagRte).instanceID := by
      simpa +decide [scrapeExternalExporterErrorLabels] using index
    exact absurd none present
  · rw [contribution]
    apply apart_errorFamily_of_ne
    decide

theorem addressApart_jobs (addresses : (request.routes.map Route.address).Nodup) :
    request.pool.jobs.Pairwise AddressApart := by
  rw [jobs_eq, List.pairwise_append]
  have exporter : ∀ job ∈ request.conversions.filterMap converted,
      job.route.tags.instanceID = [] := by
    intro job jobMem
    rcases (request.mem_exporterJobs jobMem).2 with ⟨tagRte, tags⟩
    rw [tags]
    rfl
  refine ⟨?_, ?_, ?_⟩
  · have routes : request.routes = request.routes.zipIdx.map Prod.fst := by simp
    rw [routes, List.map_map] at addresses
    unfold appJobs
    rw [List.pairwise_map]
    exact (List.pairwise_map.mp addresses).imp fun differ _ _ => differ
  · apply List.pairwise_of_forall_mem_list
    exact fun job jobMem _ _ present => absurd (exporter job jobMem) present
  · exact fun job _ other otherMem _ present => absurd (exporter other otherMem) present

theorem pairwise_contributions_iff (addresses : (request.routes.map Route.address).Nodup) :
    (request.pool.jobs.map fun job =>
      request.contribution job.id job.route).Pairwise Apart ↔
        request.pool.jobs.Pairwise request.TargetsApart ∧
          request.pool.jobs.Pairwise request.ErrorsApart := by
  have addressApart := request.addressApart_jobs addresses
  rw [List.pairwise_map, ← List.pairwise_and_iff]
  constructor
  · exact fun apart => (addressApart.and apart).imp fun both =>
      (request.apart_contribution_iff both.1).mp both.2
  · exact fun apart => (addressApart.and apart).imp fun both =>
      (request.apart_contribution_iff both.1).mpr both.2

theorem pairwise_failed_iff :
    (request.conversions.filterMap failed).Pairwise Apart ↔
      (request.conversions.filterMap failed).Nodup := by
  apply List.Pairwise.iff_of_mem
  intro newMetrics others newMetricsMem othersMem
  rcases request.mem_failed newMetricsMem with ⟨_, _, _, rfl⟩
  rcases request.mem_failed othersMem with ⟨_, _, _, rfl⟩
  exact apart_scrapeExternalExporterError_iff

theorem noDuplicates_of_mem_failed {newMetrics : Families}
    (newMetricsMem : newMetrics ∈ request.conversions.filterMap failed) :
    NoDuplicates newMetrics := by
  rcases request.mem_failed newMetricsMem with ⟨_, _, _, rfl⟩
  exact noDuplicates_errorFamily _ _ _

theorem noDuplicates_contribution_iff (job : Job) :
    NoDuplicates (request.contribution job.id job.route) ↔
      ∀ metricsGroup, request.outcome job.id = .exposition metricsGroup →
        ∀ name, (metricsOf name metricsGroup).Pairwise fun metric other =>
          ¬metric.clean.SameSeries other.clean := by
  rcases request.contribution_cases job with
    ⟨metricsGroup, outcome, _, contribution⟩ | ⟨err, outcome, _, contribution⟩
  · rw [contribution, noDuplicates_relabel_iff, outcome]
    simp
  · rw [contribution]
    exact iff_of_true (noDuplicates_errorFamily _ _ _) fun metricsGroup isGroup =>
      absurd isGroup (outcome metricsGroup)

/-- The result of a request has no duplicate series exactly if the request has distinct series. -/
theorem noDuplicates_iff (request : Request)
    (addresses : (request.routes.map Route.address).Nodup) {state : request.State}
    (reached : request.system.Reachable state) (waited : state.waited = true)
    {result : Families} (finished : state.shared.finish = .ok result) :
    NoDuplicates result ↔ request.DistinctSeries := by
  rcases finish_of_waited reached waited finished with ⟨_, unmerged, perm, rfl⟩
  have unconverted : request.setup.metricsUnmerged = request.conversions.filterMap failed := by
    rw [setup_eq]
  rw [noDuplicates_merge_of_perm (perm.trans request.contributions_perm.symm),
    noDuplicates_merge, unconverted, List.pairwise_append, pairwise_failed_iff,
    request.pairwise_contributions_iff addresses]
  simp only [List.mem_append, or_imp, forall_and, List.forall_mem_map,
    noDuplicates_contribution_iff]
  constructor
  · rintro ⟨⟨_, own⟩, exporterErrors, ⟨targets, errors⟩, _⟩
    exact ⟨own, targets, errors, exporterErrors⟩
  · rintro ⟨own, targets, errors, exporterErrors⟩
    exact ⟨⟨fun _ => request.noDuplicates_of_mem_failed, own⟩, exporterErrors,
      ⟨targets, errors⟩, fun _ newMetricsMem job _ => request.apart_of_mem_failed newMetricsMem job⟩

end Request

/-- A gauge with one label. -/
def sampleMetric (label value : String) : Metric where
  label := [⟨some (text label), some (text value)⟩]
  value := .gauge ⟨0⟩

/-- One family with two metrics, which differ in the value of a label. -/
def sampleFamilies (label first second : String) : Families :=
  AList.singleton (text "up")
    { name := some (text "up")
      type := some .gauge
      metric := [sampleMetric label first, sampleMetric label second] }

theorem pairwise_sampleFamilies {relation : Metric → Metric → Prop}
    {label first second : String}
    (related : relation (sampleMetric label first) (sampleMetric label second))
    (name : GoString) : (metricsOf name (sampleFamilies label first second)).Pairwise relation := by
  rw [sampleFamilies, metricsOf_singleton]
  split
  · exact List.pairwise_pair.mpr related
  · exact .nil

/-- Two instances that expose the same two metrics. -/
def sampleRequest : Request :=
  .ofRoutes sampleInstances_ne_nil [] ∅ fun _ =>
      .exposition (sampleFamilies "code" "200" "404")

/-- A request for an instance that tells its series apart by a label of the nine. -/
def shadowedRequest : Request :=
  .ofRoutes (List.cons_ne_nil (sampleInstance "0" "10.0.0.1:80") []) [] ∅ fun _ =>
    .exposition (sampleFamilies "instance" "a" "b")

theorem noDuplicates_iff_sample :
    ∃ state, sampleRequest.system.Reachable state ∧ state.waited = true ∧
      ∃ result, state.shared.finish = .ok result ∧ NoDuplicates result := by
  rcases sampleRequest.exists_complete with ⟨state, reached, waited⟩
  have keeps : ∀ job ∈ sampleRequest.pool.jobs, ¬sampleRequest.Fails job := by
    rintro job _ ⟨_, _, _, ⟨⟩⟩
  rcases Request.finish_of_keeps reached waited keeps with ⟨result, finished⟩
  refine ⟨state, reached, waited, result, finished, ?_⟩
  apply (sampleRequest.noDuplicates_iff (by decide) reached waited finished).mpr
  have instanceID : ∀ job ∈ sampleRequest.pool.jobs, job.route.tags.instanceID ≠ [] := by decide
  refine ⟨?_, ?_, ?_, List.nodup_nil⟩
  · rintro job _ metricsGroup ⟨⟩ name
    refine pairwise_sampleFamilies (fun same => ?_) name
    have shown := (same ⟨some (text "code"), some (text "200")⟩).mp (by decide)
    exact absurd shown (by decide)
  · apply List.pairwise_of_forall_mem_list
    exact fun job jobMem _ _ _ _ _ _ absent => absurd absent (instanceID job jobMem)
  · apply List.pairwise_of_forall_mem_list
    rintro job _ other _ err ⟨⟩

/-- Two series of one target become the same series when the label that tells them apart is
removed. -/
theorem not_noDuplicates_always :
    ¬∀ request : Request, (request.routes.map Route.address).Nodup →
      (∀ job ∈ request.pool.jobs, ∀ metricsGroup,
        request.outcome job.id = .exposition metricsGroup → NoDuplicates metricsGroup) →
      ∀ state, request.system.Reachable state → state.waited = true →
        ∀ result, state.shared.finish = .ok result → NoDuplicates result := by
  intro always
  rcases shadowedRequest.exists_complete with ⟨state, reached, waited⟩
  have keeps : ∀ job ∈ shadowedRequest.pool.jobs, ¬shadowedRequest.Fails job := by
    rintro job _ ⟨_, _, _, ⟨⟩⟩
  rcases Request.finish_of_keeps reached waited keeps with ⟨result, finished⟩
  have distinct : NoDuplicates result := by
    refine always shadowedRequest (by decide) ?_ state reached waited result finished
    rintro job _ metricsGroup ⟨⟩ name
    refine pairwise_sampleFamilies (fun same => ?_) name
    have shown := (same ⟨some (text "instance"), some (text "a")⟩).mp (by decide)
    exact absurd shown (by decide)
  rcases Request.finish_of_waited reached waited finished with ⟨_, unmerged, perm, rfl⟩
  rw [noDuplicates_merge_of_perm (perm.trans shadowedRequest.contributions_perm.symm),
    noDuplicates_merge] at distinct
  have own := (shadowedRequest.noDuplicates_contribution_iff
    ⟨.app 0, sampleInstance "0" "10.0.0.1:80"⟩).mp
      (distinct.1 _ (List.mem_append_right _ (List.mem_map_of_mem (List.Mem.head _)))) _ rfl
      (text "up")
  rw [sampleFamilies, metricsOf_singleton, if_pos rfl] at own
  exact List.rel_of_pairwise_cons own List.mem_cons_self fun _ => Iff.rfl

end Promfetcher
