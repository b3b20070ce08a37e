import Promfetcher.Errors
import Promfetcher.Config.ExternalExporters
import Promfetcher.Foundation.Keyed

/-!
# Metric families

The families that the text parser returns for one target, the labels that
`Metric` gives them, the families with which the fetcher reports an error, and
the merge. In the families of the parser and of the error counters exactly one of
the value pointers of a metric is set, so that a value is one of five kinds here.
Floating point numbers are kept as their bits.
-/

namespace Promfetcher

open Foundation

/-- A floating point number, by its bits. -/
structure Float64 where
  bits : UInt64
  deriving DecidableEq, Repr

/-- `ptrString`: a pointer to a string. -/
def ptrString (v : GoString) : Option GoString :=
  some v

/-- `dto.LabelPair`, a label of a metric. -/
structure LabelPair where
  name : Option GoString
  value : Option GoString
  deriving DecidableEq, Repr

/-- `dto.MetricType`, the type of a family. -/
inductive MetricType where
  | counter
  | gauge
  | summary
  | untyped
  | histogram
  | gaugeHistogram
  deriving DecidableEq, Repr

/-- `dto.Quantile`, one of a summary. -/
structure Quantile where
  quantile : Float64
  value : Float64
  deriving DecidableEq, Repr

/-- `dto.Bucket`, one of a histogram, as its getters show it. -/
structure Bucket where
  cumulativeCount : UInt64
  cumulativeCountFloat : Float64
  upperBound : Float64
  deriving DecidableEq, Repr

/-- The value of a metric: the one value pointer that is set, with what the getters return. -/
inductive Value where
  | counter (value : Float64)
  | gauge (value : Float64)
  | untyped (value : Float64)
  | summary (sampleCount : UInt64) (sampleSum : Float64) (quantile : List Quantile)
  | histogram (sampleCount : UInt64) (sampleCountFloat sampleSum : Float64)
      (bucket : List Bucket)
  deriving DecidableEq, Repr

/-- `dto.Metric`, one metric of a family. -/
structure Metric where
  label : List LabelPair
  value : Value
  timestampMs : Option Int := none
  deriving DecidableEq, Repr

/-- `dto.MetricFamily`, all metrics of one name. -/
structure MetricFamily where
  name : Option GoString
  help : Option GoString := none
  type : Option MetricType
  metric : List Metric
  deriving DecidableEq, Repr

/-- Families by name. -/
abbrev Families := AList fun _ : GoString => MetricFamily

/-- The metrics that a map of families holds under a name. -/
def metricsOf (name : GoString) (families : Families) : List Metric :=
  itemsOf MetricFamily.metric name families

theorem metricsOf_singleton (name family : GoString) (metricFamily : MetricFamily) :
    metricsOf name (AList.singleton family metricFamily) =
      if name = family then metricFamily.metric else [] := by
  simp only [metricsOf, itemsOf, lookup_singleton]
  split <;> rfl

/-! ## Labels -/

/-- The names of the labels that tell an instance, which a target must not choose itself. -/
def instanceLabels : List GoString :=
  [text "organization_id", text "space_id", text "app_id",
    text "organization_name", text "space_name", text "app_name",
    text "index", text "instance_id", text "instance"]

/-- `MetricsFetcher.cleanMetricLabels`. -/
def cleanMetricLabels (labels : List LabelPair) (names : List GoString) : List LabelPair :=
  labels.filter fun label => names.all fun name => label.name != some name

/-- The labels that tell the app, which every metric gets. -/
def appLabels (tags : Tags) : List LabelPair :=
  [⟨ptrString (text "organization_id"), ptrString tags.organizationID⟩,
    ⟨ptrString (text "space_id"), ptrString tags.spaceID⟩,
    ⟨ptrString (text "app_id"), ptrString tags.appID⟩,
    ⟨ptrString (text "organization_name"), ptrString tags.organizationName⟩,
    ⟨ptrString (text "space_name"), ptrString tags.spaceName⟩,
    ⟨ptrString (text "app_name"), ptrString tags.appName⟩]

/-- The labels that `Metric` appends to those of a target. -/
def routeLabels (route : Route) : List LabelPair :=
  appLabels route.tags ++
    if route.tags.instanceID ≠ [] then
      [⟨ptrString (text "index"), ptrString route.tags.instanceID⟩,
        ⟨ptrString (text "instance_id"), ptrString route.tags.instanceID⟩,
        ⟨ptrString (text "instance"), ptrString route.address⟩]
    else []

/-- The loop body of `Metric`. -/
def Metric.relabel (route : Route) (metric : Metric) : Metric :=
  { metric with label := cleanMetricLabels metric.label instanceLabels ++ routeLabels route }

/-- A family once `Metric` has been through its metrics. -/
def MetricFamily.relabel (route : Route) (family : MetricFamily) : MetricFamily :=
  { family with metric := family.metric.map (Metric.relabel route) }

/-! ## Scrapes -/

/-- What becomes of a scrape. -/
inductive ScrapeResult where
  | exposition (metricsGroup : Families)
  /-- A status code from 400 to 499, which `Scrape` turns into an `ErrFetch`. -/
  | noEndpointFound (appIdOrPath endpoint : GoString)
  | failure (error : GoString)

/-- An error that `Metric` returns. -/
inductive ScrapeError where
  | fetch (err : ErrFetch)
  | other (error : GoString)
  deriving DecidableEq

/-- The text of `err.Error()`. -/
def ScrapeError.error : ScrapeError → GoString
  | .fetch err => err.error
  | .other error => error

/-- `MetricsFetcher.Metric`, after the scrape of the route. -/
def metric (route : Route) : ScrapeResult → Except ScrapeError Families
  | .exposition metricsGroup => .ok (mapValues (MetricFamily.relabel route) metricsGroup)
  | .noEndpointFound appIdOrPath endpoint =>
      .error (.fetch (errNoEndpointFound appIdOrPath endpoint))
  | .failure error => .error (.other error)

/-! ## Error families -/

/-- The labels that `prometheus.NewCounter` writes for constant labels, here given in the order of
their names. It writes none if some value is not valid UTF-8. -/
def counterLabels (constLabels : List (GoString × GoString)) : List LabelPair :=
  if constLabels.all fun label => validString label.2 then
    constLabels.map fun label => ⟨ptrString label.1, ptrString label.2⟩
  else []

theorem counterLabels_of_valid {constLabels : List (GoString × GoString)}
    (valid : (constLabels.all fun label => validString label.2) = true) :
    counterLabels constLabels =
      constLabels.map fun label => ⟨ptrString label.1, ptrString label.2⟩ :=
  if_pos valid

theorem counterLabels_of_invalid {constLabels : List (GoString × GoString)}
    (invalid : ¬(constLabels.all fun label => validString label.2) = true) :
    counterLabels constLabels = [] :=
  if_neg invalid

/-- The counter of an error, which is one. -/
def errorMetric (constLabels : List (GoString × GoString)) : Metric :=
  { label := counterLabels constLabels, value := .counter ⟨0x3FF0000000000000⟩ }

/-- The map with the one family that reports an error. -/
def errorFamily (name help : GoString) (constLabels : List (GoString × GoString)) : Families :=
  AList.singleton name
    { name := ptrString name
      help := ptrString help
      type := some .counter
      metric := [errorMetric constLabels] }

/-- The name under which the failure of an instance is reported. -/
def scrapeErrorName : GoString := text "promfetcher_scrape_error"

/-- The constant labels with which the failure of an instance is reported. -/
def scrapeErrorLabels (route : Route) (err : GoString) : List (GoString × GoString) :=
  [(text "app_id", route.tags.appID),
    (text "app_name", route.tags.appName),
    (text "error", err),
    (text "index", route.tags.instanceID),
    (text "instance", route.address),
    (text "instance_id", route.tags.instanceID),
    (text "organization_id", route.tags.organizationID),
    (text "organization_name", route.tags.organizationName),
    (text "space_id", route.tags.spaceID),
    (text "space_name", route.tags.spaceName)]

/-- `MetricsFetcher.scrapeError`. -/
def scrapeError (route : Route) (err : GoString) : Families :=
  errorFamily scrapeErrorName (text "Promfetcher scrap error on your instance")
    (scrapeErrorLabels route err)

/-- The name under which the failure of an external exporter is reported. -/
def scrapeExternalExporterErrorName : GoString :=
  text "promfetcher_scrape_external_exporter_error"

/-- The constant labels with which the failure of an external exporter is reported. -/
def scrapeExternalExporterErrorLabels (tags : Tags) (externalExporter : ExternalExporter)
    (err : GoString) : List (GoString × GoString) :=
  [(text "app_id", tags.appID),
    (text "app_name", tags.appName),
    (text "error", err),
    (text "index", tags.instanceID),
    (text "instance", externalExporter.host),
    (text "instance_id", tags.instanceID),
    (text "name", externalExporter.name),
    (text "organization_id", tags.organizationID),
    (text "organization_name", tags.organizationName),
    (text "space_id", tags.spaceID),
    (text "space_name", tags.spaceName)]

/-- `MetricsFetcher.scrapeExternalExporterError`. -/
def scrapeExternalExporterError (tags : Tags) (externalExporter : ExternalExporter)
    (err : GoString) : Families :=
  errorFamily scrapeExternalExporterErrorName
    (text "Promfetcher scrap external exporter error on your instance")
    (scrapeExternalExporterErrorLabels tags externalExporter err)

theorem metricsOf_errorFamily (name family help : GoString)
    (constLabels : List (GoString × GoString)) :
    metricsOf name (errorFamily family help constLabels) =
      if name = family then [errorMetric constLabels] else [] :=
  metricsOf_singleton _ _ _

/-! ## The merge -/

/-- The family of the base map after the metrics of another target have been appended to it. -/
def MetricFamily.append (baseMetricFamily metricFamily : MetricFamily) : MetricFamily :=
  { baseMetricFamily with metric := baseMetricFamily.metric ++ metricFamily.metric }

/-- The merge loop of `Metrics`. -/
def merge (metricsUnmerged : List Families) : Families :=
  mergeAll MetricFamily.append metricsUnmerged

theorem mem_merge (metricsUnmerged : List Families) (name : GoString) :
    name ∈ merge metricsUnmerged ↔ ∃ families ∈ metricsUnmerged, name ∈ families :=
  mem_mergeAll _ _ _

theorem metricsOf_merge (metricsUnmerged : List Families) (name : GoString) :
    metricsOf name (merge metricsUnmerged) = metricsUnmerged.flatMap (metricsOf name) :=
  itemsOf_mergeAll (fun _ _ => rfl) _ _

theorem metricsOf_mapValues (route : Route) (families : Families) (name : GoString) :
    metricsOf name (mapValues (MetricFamily.relabel route) families) =
      (metricsOf name families).map (Metric.relabel route) := by
  simp only [metricsOf, itemsOf, lookup_mapValues]
  cases families.lookup name <;> rfl

end Promfetcher
