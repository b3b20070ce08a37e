import Promfetcher.Fetchers.Series

/-!
# The labels of a scraped metric

`cleanMetricLabels` and the nested loops of `Metric` in `fetchers/metricsfetcher.go`, statement
by statement. A target chooses every label it exposes, so that its own pairs under the
nine names have to go before those of the route are appended. Each name that is
appended is in the list of names that are removed; this is what keeps a target
from forging a label and the names of a metric apart.
-/

namespace Promfetcher

open Foundation

namespace MetricsFetcher

/-- The inner loop of `cleanMetricLabels`: what `toAdd` is after it. -/
def toAdd (label : LabelPair) : List GoString → Bool
  | [] => true
  | name :: names => if label.name = some name then false else toAdd label names

/-- The outer loop of `cleanMetricLabels`, on the labels still to visit. -/
def cleanLoop (names : List GoString) : List LabelPair → List LabelPair → List LabelPair
  | finalLabels, [] => finalLabels
  | finalLabels, label :: labels =>
      cleanLoop names (if toAdd label names then finalLabels ++ [label] else finalLabels) labels

/-- The body of the inner loop of `Metric`. -/
def relabelBody (route : Route) (metric : Metric) : Metric :=
  let label := cleanLoop instanceLabels [] metric.label
  let label := label ++
    [⟨ptrString (text "organization_id"), ptrString route.tags.organizationID⟩,
      ⟨ptrString (text "space_id"), ptrString route.tags.spaceID⟩,
      ⟨ptrString (text "app_id"), ptrString route.tags.appID⟩,
      ⟨ptrString (text "organization_name"), ptrString route.tags.organizationName⟩,
      ⟨ptrString (text "space_name"), ptrString route.tags.spaceName⟩,
      ⟨ptrString (text "app_name"), ptrString route.tags.appName⟩]
  let label :=
    if route.tags.instanceID ≠ [] then
      label ++
        [⟨ptrString (text "index"), ptrString route.tags.instanceID⟩,
          ⟨ptrString (text "instance_id"), ptrString route.tags.instanceID⟩,
          ⟨ptrString (text "instance"), ptrString route.address⟩]
    else label
  { metric with label := label }

/-- The loops of `Metric`. The metrics of a parsed exposition are reached through one pointer
each. -/
def relabelLoops (route : Route) (metricsGroup : Families) : Families :=
  mapValues
    (fun metricGroup => { metricGroup with metric := metricGroup.metric.map (relabelBody route) })
    metricsGroup

theorem toAdd_eq (label : LabelPair) (names : List GoString) :
    toAdd label names = names.all fun name => label.name != some name := by
  induction names with
  | nil => rfl
  | cons name names inductionHypothesis =>
      rw [toAdd, List.all_cons, inductionHypothesis]
      by_cases named : label.name = some name <;> simp [named]

theorem cleanLoop_eq (names : List GoString) (finalLabels labels : List LabelPair) :
    cleanLoop names finalLabels labels = finalLabels ++ cleanMetricLabels labels names := by
  induction labels generalizing finalLabels with
  | nil => exact (List.append_nil _).symm
  | cons label labels inductionHypothesis =>
      rw [cleanLoop, inductionHypothesis, toAdd_eq]
      unfold cleanMetricLabels
      rw [List.filter_cons]
      split
      · exact List.append_assoc _ _ _
      · rfl

theorem relabelBody_eq (route : Route) (metric : Metric) :
    relabelBody route metric = metric.relabel route := by
  unfold relabelBody Metric.relabel routeLabels appLabels
  rw [cleanLoop_eq, List.nil_append]
  split
  · simp only [List.append_assoc]
  · simp only [List.append_nil]

theorem relabelLoops_eq (route : Route) (metricsGroup : Families) :
    relabelLoops route metricsGroup = mapValues (MetricFamily.relabel route) metricsGroup := by
  have body : relabelBody route = Metric.relabel route := funext (relabelBody_eq route)
  rw [relabelLoops, body]
  rfl

end MetricsFetcher

/-! ## What they do to one metric -/

/-- One of the names that `Metric` writes itself. -/
def LabelPair.reserved (pair : LabelPair) : Bool :=
  instanceLabels.any fun name => pair.name == some name

theorem reserved_iff {pair : LabelPair} :
    pair.reserved = true ↔ ∃ name ∈ instanceLabels, pair.name = some name := by
  simp [LabelPair.reserved]

theorem cleanMetricLabels_eq_filter (labels : List LabelPair) :
    cleanMetricLabels labels instanceLabels = labels.filter fun pair => !pair.reserved := by
  apply List.filter_congr
  intro pair _
  rw [LabelPair.reserved, List.not_any_eq_all_not]
  rfl

theorem reserved_of_mem_routeLabels {route : Route} {pair : LabelPair}
    (added : pair ∈ routeLabels route) : pair.reserved = true :=
  reserved_iff.mpr (name_of_mem_routeLabels added)

theorem nodup_names_routeLabels (route : Route) :
    ((routeLabels route).map LabelPair.name).Nodup := by
  unfold routeLabels appLabels
  split <;>
    · simp only [List.map_append, List.map_cons, List.map_nil]
      decide

/-- What becomes of a metric of a target: the labels it keeps and gets, and what stays. -/
structure Metric.LabelledBy (route : Route) (metric labelled : Metric) : Prop where
  label : labelled.label =
    (metric.label.filter fun pair => !pair.reserved) ++
      [⟨some (text "organization_id"), some route.tags.organizationID⟩,
        ⟨some (text "space_id"), some route.tags.spaceID⟩,
        ⟨some (text "app_id"), some route.tags.appID⟩,
        ⟨some (text "organization_name"), some route.tags.organizationName⟩,
        ⟨some (text "space_name"), some route.tags.spaceName⟩,
        ⟨some (text "app_name"), some route.tags.appName⟩] ++
      if route.tags.instanceID ≠ [] then
        [⟨some (text "index"), some route.tags.instanceID⟩,
          ⟨some (text "instance_id"), some route.tags.instanceID⟩,
          ⟨some (text "instance"), some route.address⟩]
      else []
  /-- The pairs under the nine names are the same in every exposition. -/
  reserved : labelled.label.filter LabelPair.reserved = routeLabels route
  names : (metric.label.map LabelPair.name).Nodup → (labelled.label.map LabelPair.name).Nodup
  value : labelled.value = metric.value
  timestampMs : labelled.timestampMs = metric.timestampMs

theorem filter_reserved_relabel (route : Route) (metric : Metric) :
    (metric.relabel route).label.filter LabelPair.reserved = routeLabels route := by
  have kept : (cleanMetricLabels metric.label instanceLabels).filter LabelPair.reserved = [] := by
    rw [cleanMetricLabels_eq_filter, List.filter_filter]
    simp
  have added : (routeLabels route).filter LabelPair.reserved = routeLabels route :=
    List.filter_eq_self.mpr fun _ => reserved_of_mem_routeLabels
  rw [Metric.relabel, List.filter_append, kept, added, List.nil_append]

theorem nodup_names_relabel (route : Route) {metric : Metric}
    (nodup : (metric.label.map LabelPair.name).Nodup) :
    ((metric.relabel route).label.map LabelPair.name).Nodup := by
  rw [Metric.relabel, List.map_append, List.nodup_append]
  refine ⟨nodup.sublist (List.filter_sublist.map _), nodup_names_routeLabels route, ?_⟩
  intro name nameKept other otherAdded equal
  rcases List.mem_map.mp nameKept with ⟨pair, kept, rfl⟩
  rcases List.mem_map.mp otherAdded with ⟨added, addedMem, rfl⟩
  rcases name_of_mem_routeLabels addedMem with ⟨reserved, reservedMem, named⟩
  exact (mem_cleanMetricLabels.mp kept).2 reserved reservedMem (equal.trans named)

theorem relabel_labelledBy (route : Route) (metric : Metric) :
    metric.LabelledBy route (metric.relabel route) where
  label := by
    rw [← cleanMetricLabels_eq_filter, List.append_assoc]
    rfl
  reserved := filter_reserved_relabel route metric
  names := nodup_names_relabel route
  value := rfl
  timestampMs := rfl

/-! ## Whole expositions -/

/-- `Metric` gives every metric of a target the labels of its route, and its loops are those of
the source. -/
theorem metric_labels (route : Route) (metricsGroup : Families) :
    metric route (.exposition metricsGroup) =
        .ok (MetricsFetcher.relabelLoops route metricsGroup) ∧
      (∀ name, name ∈ MetricsFetcher.relabelLoops route metricsGroup ↔ name ∈ metricsGroup) ∧
      ∀ name family, metricsGroup.lookup name = some family →
        ∃ labelled, (MetricsFetcher.relabelLoops route metricsGroup).lookup name = some labelled ∧
          labelled.name = family.name ∧ labelled.help = family.help ∧
          labelled.type = family.type ∧
          List.Forall₂ (Metric.LabelledBy route) family.metric labelled.metric := by
  rw [MetricsFetcher.relabelLoops_eq]
  refine ⟨rfl, ?_, ?_⟩
  · intro name
    rw [← AList.lookup_isSome, ← AList.lookup_isSome, lookup_mapValues, Option.isSome_map]
  · intro name family held
    refine ⟨family.relabel route, ?_, rfl, rfl, rfl, ?_⟩
    · rw [lookup_mapValues, held]
      rfl
    · refine List.forall₂_map_right_iff.mpr (List.forall₂_same.mpr ?_)
      exact fun metric _ => relabel_labelledBy route metric

end Promfetcher
