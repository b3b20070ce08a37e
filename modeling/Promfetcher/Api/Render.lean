import Promfetcher.Fetchers.Accounting

/-!
# The response of a metrics request

The handler of `api/metrics.go`, after `Metrics` has returned, and the function of
the vendored package `expfmt` that writes a family. That function stops at the
first metric whose value is not of the kind of the type of the family; the handler
ignores its error. A line is kept as what it says: the formats of numbers and
escapes are not modelled.
-/

namespace Promfetcher

open Foundation

/-- The value pointers of `dto.Metric`. -/
inductive Kind where
  | counter
  | gauge
  | untyped
  | summary
  | histogram
  deriving DecidableEq, Repr

/-- The value pointer that is set. -/
def Value.kind : Value → Kind
  | .counter _ => .counter
  | .gauge _ => .gauge
  | .untyped _ => .untyped
  | .summary .. => .summary
  | .histogram .. => .histogram

/-- The value pointer that the rendering of the type asks for. -/
def MetricType.kind : MetricType → Kind
  | .counter => .counter
  | .gauge => .gauge
  | .untyped => .untyped
  | .summary => .summary
  | .histogram => .histogram
  | .gaugeHistogram => .histogram

/-- `in.GetType()`. -/
def MetricFamily.getType (family : MetricFamily) : MetricType :=
  family.type.getD .counter

/-- `in.GetName()`. -/
def MetricFamily.getName (family : MetricFamily) : GoString :=
  family.name.getD []

/-- The number of a sample: a floating point number, or a count converted to one. -/
inductive Number where
  | float (value : Float64)
  | count (value : UInt64)
  deriving DecidableEq, Repr

/-- A zero of either sign. -/
def Float64.isZero (number : Float64) : Bool :=
  number.bits == 0 || number.bits == 0x8000000000000000

/-- The bound of the bucket that counts everything. -/
def Float64.infinity : Float64 :=
  ⟨0x7FF0000000000000⟩

/-- A sample: the name of the family with a suffix, the metric with its labels and timestamp, an
additional label, and a number. -/
structure Sample where
  name : GoString
  suffix : GoString
  metric : Metric
  additionalLabel : Option (GoString × Float64)
  value : Number
  deriving DecidableEq, Repr

/-- A line of an exposition. -/
inductive Line where
  | help (name text : GoString)
  | type (name : GoString) (metricType : GoString)
  | sample (sample : Sample)
  | blank
  deriving DecidableEq, Repr

/-- An error of `MetricFamilyToText`. -/
inductive RenderError where
  | noMetrics
  | noName
  | expected (kind : Kind)
  deriving DecidableEq, Repr

/-- The word for a type on the `# TYPE` line. -/
def MetricType.word : MetricType → GoString
  | .counter => text "counter"
  | .gauge => text "gauge"
  | .summary => text "summary"
  | .untyped => text "untyped"
  | .histogram | .gaugeHistogram => text "histogram"

/-- A count that a float, if it is not zero, stands in for. -/
def countOr (float : Float64) (count : UInt64) : Number :=
  if float.isZero then .count count else .float float

/-- The lines of a summary: its quantiles, its sum and its count. -/
def summaryLines (name : GoString) (metric : Metric) (sampleCount : UInt64)
    (sampleSum : Float64) (quantile : List Quantile) : List Line :=
  quantile.map (fun q =>
      .sample ⟨name, [], metric, some (text "quantile", q.quantile), .float q.value⟩) ++
    [.sample ⟨name, text "_sum", metric, none, .float sampleSum⟩,
      .sample ⟨name, text "_count", metric, none, .count sampleCount⟩]

/-- The lines of a histogram: its buckets, the one for everything added if it is missing, its sum
and its count. -/
def histogramLines (name : GoString) (metric : Metric) (sampleCount : UInt64)
    (sampleCountFloat sampleSum : Float64) (bucket : List Bucket) : List Line :=
  let infSeen := bucket.any fun b => b.upperBound == Float64.infinity
  bucket.map (fun b =>
      .sample ⟨name, text "_bucket", metric, some (text "le", b.upperBound),
        countOr b.cumulativeCountFloat b.cumulativeCount⟩) ++
    (if infSeen then []
      else [.sample ⟨name, text "_bucket", metric, some (text "le", Float64.infinity),
        countOr sampleCountFloat sampleCount⟩]) ++
    [.sample ⟨name, text "_sum", metric, none, .float sampleSum⟩,
      .sample ⟨name, text "_count", metric, none, countOr sampleCountFloat sampleCount⟩]

/-- The body of the loop over the metrics of a family. -/
def writeMetric (name : GoString) (metricType : MetricType) (metric : Metric) :
    Except RenderError (List Line) :=
  match metricType, metric.value with
  | .counter, .counter value => .ok [.sample ⟨name, [], metric, none, .float value⟩]
  | .counter, _ => .error (.expected .counter)
  | .gauge, .gauge value => .ok [.sample ⟨name, [], metric, none, .float value⟩]
  | .gauge, _ => .error (.expected .gauge)
  | .untyped, .untyped value => .ok [.sample ⟨name, [], metric, none, .float value⟩]
  | .untyped, _ => .error (.expected .untyped)
  | .summary, .summary sampleCount sampleSum quantile =>
      .ok (summaryLines name metric sampleCount sampleSum quantile)
  | .summary, _ => .error (.expected .summary)
  | .histogram, .histogram sampleCount sampleCountFloat sampleSum bucket
  | .gaugeHistogram, .histogram sampleCount sampleCountFloat sampleSum bucket =>
      .ok (histogramLines name metric sampleCount sampleCountFloat sampleSum bucket)
  | .histogram, _ => .error (.expected .histogram)
  | .gaugeHistogram, _ => .error (.expected .histogram)

/-- The loop over the metrics of a family. -/
def writeMetrics (name : GoString) (metricType : MetricType) :
    List Metric → List Line × Option RenderError
  | [] => ([], none)
  | metric :: metrics =>
      match writeMetric name metricType metric with
      | .error err => ([], some err)
      | .ok lines =>
          let (written, err) := writeMetrics name metricType metrics
          (lines ++ written, err)

/-- The lines that describe a family. -/
def headerLines (name : GoString) (family : MetricFamily) : List Line :=
  (family.help.map (Line.help name)).toList ++ [.type name family.getType.word]

/-- `expfmt.MetricFamilyToText`: the lines written, and the error. -/
def metricFamilyToText (family : MetricFamily) : List Line × Option RenderError :=
  if family.metric = [] then ([], some .noMetrics)
  else if family.getName = [] then ([], some .noName)
  else
    let (written, err) := writeMetrics family.getName family.getType family.metric
    (headerLines family.getName family ++ written, err)

/-- The lines of the body of a successful response. The range over the map visits the families in
the given order. -/
def Api.metrics (order : List (Sigma fun _ : GoString => MetricFamily)) : List Line :=
  order.flatMap fun entry => (metricFamilyToText entry.2).1 ++ [.blank]

/-! ## One family -/

/-- The lines of a metric, whatever the type of its family. -/
def metricLines (name : GoString) (metric : Metric) : List Line :=
  match metric.value with
  | .counter value | .gauge value | .untyped value =>
      [.sample ⟨name, [], metric, none, .float value⟩]
  | .summary sampleCount sampleSum quantile =>
      summaryLines name metric sampleCount sampleSum quantile
  | .histogram sampleCount sampleCountFloat sampleSum bucket =>
      histogramLines name metric sampleCount sampleCountFloat sampleSum bucket

theorem writeMetric_of_kind {name : GoString} {metricType : MetricType} {metric : Metric}
    (kind : metric.value.kind = metricType.kind) :
    writeMetric name metricType metric = .ok (metricLines name metric) := by
  unfold writeMetric metricLines
  cases metricType <;> cases value : metric.value <;>
    simp [value, Value.kind, MetricType.kind] at kind ⊢

theorem writeMetrics_of_kinds {name : GoString} {metricType : MetricType} {metrics : List Metric}
    (kinds : ∀ metric ∈ metrics, metric.value.kind = metricType.kind) :
    writeMetrics name metricType metrics = (metrics.flatMap (metricLines name), none) := by
  induction metrics with
  | nil => rfl
  | cons metric metrics inductionHypothesis =>
      rw [List.forall_mem_cons] at kinds
      simp only [writeMetrics, writeMetric_of_kind kinds.1, inductionHypothesis kinds.2,
        List.flatMap_cons]

/-- A family as the text parser returns it: it has a name and metrics, and all its metrics carry
values of the kind of its type. -/
structure MetricFamily.Parsed (family : MetricFamily) (name : GoString) : Prop where
  name_ne_nil : name ≠ []
  named : family.name = some name
  metric_ne_nil : family.metric ≠ []
  kinds : ∀ metric ∈ family.metric, metric.value.kind = family.getType.kind

instance (family : MetricFamily) (name : GoString) : Decidable (family.Parsed name) :=
  decidable_of_iff (name ≠ [] ∧ family.name = some name ∧ family.metric ≠ [] ∧
      ∀ metric ∈ family.metric, metric.value.kind = family.getType.kind)
    ⟨fun ⟨given, named, nonempty, kinds⟩ => ⟨given, named, nonempty, kinds⟩,
      fun parsed => ⟨parsed.name_ne_nil, parsed.named, parsed.metric_ne_nil, parsed.kinds⟩⟩

theorem MetricFamily.Parsed.metricFamilyToText {family : MetricFamily} {name : GoString}
    (parsed : family.Parsed name) :
    metricFamilyToText family =
      (headerLines name family ++ family.metric.flatMap (metricLines name), none) := by
  have getName : family.getName = name := by
    rw [getName, parsed.named]
    rfl
  unfold Promfetcher.metricFamilyToText
  rw [if_neg parsed.metric_ne_nil, getName, if_neg parsed.name_ne_nil,
    writeMetrics_of_kinds parsed.kinds]

theorem MetricFamily.Parsed.relabel {family : MetricFamily} {name : GoString}
    (parsed : family.Parsed name) (route : Route) : (family.relabel route).Parsed name where
  name_ne_nil := parsed.name_ne_nil
  named := parsed.named
  metric_ne_nil := by simpa [MetricFamily.relabel] using parsed.metric_ne_nil
  kinds := by
    intro metric metricMem
    rcases List.mem_map.mp metricMem with ⟨original, originalMem, rfl⟩
    exact parsed.kinds original originalMem

theorem parsed_errorFamily {family help name : GoString}
    {constLabels : List (GoString × GoString)} {metricFamily : MetricFamily}
    (family_ne_nil : family ≠ [])
    (lookup : (errorFamily family help constLabels).lookup name = some metricFamily) :
    metricFamily.Parsed name := by
  rcases eq_of_lookup_singleton lookup with ⟨rfl, rfl⟩
  refine ⟨family_ne_nil, rfl, List.cons_ne_nil _ _, ?_⟩
  intro metric metricMem
  rw [List.mem_singleton.mp metricMem]
  rfl

/-! ## The merged map -/

/-- A merged family is that of the first map with its name, with the metrics of all maps. -/
theorem lookup_merge {maps : List Families} {name : GoString} {merged : MetricFamily}
    (lookup : (merge maps).lookup name = some merged) :
    (∃ families ∈ maps, ∃ family, families.lookup name = some family ∧
      merged.name = family.name ∧ merged.type = family.type) ∧
      merged.metric = maps.flatMap (metricsOf name) := by
  have first : ((merge maps).lookup name).map (fun family => (family.name, family.type)) =
      (maps.filterMap (AList.lookup name)).head?.map fun family => (family.name, family.type) :=
    lookup_mergeAll_first MetricFamily.append _ (fun _ _ => rfl) maps name
  have metrics := metricsOf_merge maps name
  simp only [metricsOf, itemsOf, lookup, Option.elim_some] at metrics
  refine ⟨?_, metrics⟩
  rw [lookup, Option.map_some, eq_comm, Option.map_eq_some_iff] at first
  rcases first with ⟨family, isFirst, parts⟩
  rw [Prod.mk.injEq] at parts
  rcases List.mem_filterMap.mp (List.mem_of_mem_head? isFirst) with ⟨families, familiesMem, held⟩
  exact ⟨families, familiesMem, family, held, parts.1.symm, parts.2.symm⟩

theorem mem_metricsOf {families : Families} {name : GoString} {metric : Metric} :
    metric ∈ metricsOf name families ↔
      ∃ family, families.lookup name = some family ∧ metric ∈ family.metric := by
  unfold metricsOf itemsOf
  cases families.lookup name <;> simp

/-- All families of one name, in all maps, have values of one kind. -/
def KindsAgree (maps : List Families) : Prop :=
  ∀ families ∈ maps, ∀ others ∈ maps, ∀ name family other,
    families.lookup name = some family → others.lookup name = some other →
      family.getType.kind = other.getType.kind

instance (maps : List Families) : Decidable (KindsAgree maps) :=
  decidable_of_iff (∀ families ∈ maps, ∀ others ∈ maps, ∀ entry ∈ families.entries,
      ∀ other ∈ others.lookup entry.1, entry.2.getType.kind = other.getType.kind)
    ⟨fun agree families familiesMem others othersMem name family other held =>
        agree families familiesMem others othersMem ⟨name, family⟩ (AList.mem_lookup_iff.mp held)
          other,
      fun agree families familiesMem others othersMem entry entryMem other =>
        agree families familiesMem others othersMem entry.1 entry.2 other
          (AList.mem_lookup_iff.mpr entryMem)⟩

/-- All families are as the text parser returns them. -/
def AllParsed (maps : List Families) : Prop :=
  ∀ families ∈ maps, ∀ name family, families.lookup name = some family → family.Parsed name

theorem parsed_merge {maps : List Families} (parsed : AllParsed maps) (agree : KindsAgree maps)
    {name : GoString} {merged : MetricFamily} (lookup : (merge maps).lookup name = some merged) :
    merged.Parsed name := by
  rcases lookup_merge lookup with ⟨⟨families, familiesMem, family, held, named, typed⟩, metrics⟩
  have first := parsed families familiesMem name family held
  refine ⟨first.name_ne_nil, named.trans first.named, ?_, ?_⟩
  · rcases List.exists_mem_of_ne_nil _ first.metric_ne_nil with ⟨metric, metricMem⟩
    rw [metrics]
    apply List.ne_nil_of_mem
    exact List.mem_flatMap.mpr ⟨families, familiesMem, mem_metricsOf.mpr ⟨family, held, metricMem⟩⟩
  · intro metric metricMem
    rw [metrics, List.mem_flatMap] at metricMem
    rcases metricMem with ⟨others, othersMem, inOthers⟩
    rcases mem_metricsOf.mp inOthers with ⟨other, otherHeld, inOther⟩
    rw [(parsed others othersMem name other otherHeld).kinds metric inOther,
      agree others othersMem families familiesMem name other family otherHeld held]
    unfold MetricFamily.getType
    rw [typed]

/-- If every metric of the merged map is of the kind of its family, the kinds agree. -/
theorem kindsAgree_of_merge {maps : List Families} (parsed : AllParsed maps)
    (kinds : ∀ name merged, (merge maps).lookup name = some merged →
      ∀ metric ∈ merged.metric, metric.value.kind = merged.getType.kind) : KindsAgree maps := by
  intro families familiesMem others othersMem name family other held otherHeld
  have present : name ∈ merge maps :=
    (mem_merge maps name).mpr ⟨families, familiesMem, AList.lookup_isSome.mp (by rw [held]; rfl)⟩
  rcases Option.isSome_iff_exists.mp (AList.lookup_isSome.mpr present) with ⟨merged, lookup⟩
  have kindOf {families : Families} (familiesMem : families ∈ maps) {family : MetricFamily}
      (held : families.lookup name = some family) :
      family.getType.kind = merged.getType.kind := by
    have holds := parsed families familiesMem name family held
    rcases List.exists_mem_of_ne_nil _ holds.metric_ne_nil with ⟨metric, metricMem⟩
    rw [← holds.kinds metric metricMem]
    apply kinds name merged lookup
    rw [(lookup_merge lookup).2]
    exact List.mem_flatMap.mpr ⟨families, familiesMem, mem_metricsOf.mpr ⟨family, held, metricMem⟩⟩
  rw [kindOf familiesMem held, kindOf othersMem otherHeld]

/-! ## The request -/

namespace Request

variable (request : Request)

/-- Every family that a target exposes is one that the text parser returns. -/
def Parsed : Prop :=
  ∀ job ∈ request.pool.jobs, ∀ metricsGroup, request.outcome job.id = .exposition metricsGroup →
    ∀ name family, metricsGroup.lookup name = some family → family.Parsed name

/-- Everything that was merged is also written. -/
structure Renders (result : Families) : Prop where
  kinds : ∀ name family, result.lookup name = some family →
    ∀ metric ∈ family.metric, metric.value.kind = family.getType.kind
  complete : ∀ name family, result.lookup name = some family →
    metricFamilyToText family =
      (headerLines name family ++ family.metric.flatMap (metricLines name), none)
  every : ∀ order, order.Perm result.entries → ∀ families ∈ request.contributions,
    ∀ name, ∀ metric ∈ metricsOf name families, ∀ line ∈ metricLines name metric,
      line ∈ Api.metrics order

variable {request}

theorem allParsed_contributions (parsed : request.Parsed) : AllParsed request.contributions := by
  intro families familiesMem name family lookup
  rcases List.mem_append.mp (request.contributions_perm.mem_iff.mpr familiesMem) with
    isFailed | isContribution
  · rw [setup_eq] at isFailed
    rcases request.mem_failed isFailed with ⟨tagRte, ee, err, rfl⟩
    exact parsed_errorFamily (by decide) lookup
  · rcases List.mem_map.mp isContribution with ⟨job, jobMem, rfl⟩
    rcases request.contribution_cases job with
      ⟨metricsGroup, outcome, _, contribution⟩ | ⟨err, _, _, contribution⟩
    · rw [contribution, lookup_mapValues, Option.map_eq_some_iff] at lookup
      rcases lookup with ⟨original, held, rfl⟩
      exact (parsed job jobMem metricsGroup outcome name original held).relabel job.route
    · rw [contribution] at lookup
      exact parsed_errorFamily (by decide) lookup

theorem renders_of_agree (parsed : request.Parsed) (agree : KindsAgree request.contributions)
    {unmerged : List Families} (perm : unmerged.Perm request.contributions) :
    request.Renders (merge unmerged) := by
  have allParsed : AllParsed unmerged := fun families familiesMem =>
    allParsed_contributions parsed families (perm.mem_iff.mp familiesMem)
  have agree : KindsAgree unmerged := fun families familiesMem others othersMem =>
    agree families (perm.mem_iff.mp familiesMem) others (perm.mem_iff.mp othersMem)
  refine ⟨?_, ?_, ?_⟩
  · exact fun name merged lookup => (parsed_merge allParsed agree lookup).kinds
  · exact fun name merged lookup => (parsed_merge allParsed agree lookup).metricFamilyToText
  · intro order visits families familiesMem name metric metricMem line lineMem
    have inMerged : metric ∈ metricsOf name (merge unmerged) := by
      rw [metricsOf_merge, List.mem_flatMap]
      exact ⟨families, perm.mem_iff.mpr familiesMem, metricMem⟩
    rcases mem_metricsOf.mp inMerged with ⟨merged, lookup, inFamily⟩
    have entryMem : ⟨name, merged⟩ ∈ order :=
      visits.mem_iff.mpr (AList.mem_lookup_iff.mp lookup)
    refine List.mem_flatMap.mpr ⟨_, entryMem, List.mem_append_left _ ?_⟩
    rw [(parsed_merge allParsed agree lookup).metricFamilyToText]
    exact List.mem_append_right _ (List.mem_flatMap.mpr ⟨metric, inFamily, lineMem⟩)

/-- In every order of completion everything is written, exactly if some target makes the request
fail or all families of one name have values of one kind. -/
theorem renders_iff (request : Request) (parsed : request.Parsed) :
    (∀ state, request.system.Reachable state → state.waited = true →
        ∀ result, state.shared.finish = .ok result → request.Renders result) ↔
      (∃ job ∈ request.pool.jobs, request.Fails job) ∨ KindsAgree request.contributions := by
  constructor
  · intro renders
    refine or_iff_not_imp_left.mpr fun keeps => ?_
    push Not at keeps
    rcases request.exists_complete with ⟨state, reached, waited⟩
    rcases finish_of_keeps reached waited keeps with ⟨result, finished⟩
    have kinds := (renders state reached waited result finished).kinds
    rcases finish_of_waited reached waited finished with ⟨_, unmerged, perm, rfl⟩
    have agree := kindsAgree_of_merge
      (fun families familiesMem =>
        allParsed_contributions parsed families (perm.mem_iff.mp familiesMem)) kinds
    exact fun families familiesMem others othersMem =>
      agree families (perm.mem_iff.mpr familiesMem) others (perm.mem_iff.mpr othersMem)
  · intro condition state reached waited result finished
    rcases finish_of_waited reached waited finished with ⟨keeps, unmerged, perm, rfl⟩
    rcases condition with ⟨job, jobMem, fails⟩ | agree
    · exact absurd fails (keeps job jobMem)
    · exact renders_of_agree parsed agree perm

end Request

/-- One family with one metric. -/
def exposed (name : String) (type : MetricType) (value : Value) : Families :=
  AList.singleton (text name)
    { name := some (text name), type := some type, metric := [{ label := [], value := value }] }

theorem parsed_exposed {sample : String} {type : MetricType} {value : Value}
    (sample_ne_nil : text sample ≠ []) (kind : value.kind = type.kind) {name : GoString}
    {family : MetricFamily} (lookup : (exposed sample type value).lookup name = some family) :
    family.Parsed name := by
  rcases eq_of_lookup_singleton lookup with ⟨rfl, rfl⟩
  refine ⟨sample_ne_nil, rfl, List.cons_ne_nil _ _, ?_⟩
  intro metric metricMem
  rw [List.mem_singleton.mp metricMem]
  exact kind

/-- A request for two instances of an app, each of which exposes `up`. -/
def rollingRequest (old new : Families) : Request :=
  .ofRoutes sampleInstances_ne_nil [] ∅ fun
      | .app 0 => .exposition old
      | _ => .exposition new

theorem keeps_rollingRequest (old new : Families) :
    ∀ job ∈ (rollingRequest old new).pool.jobs, ¬(rollingRequest old new).Fails job := by
  rintro job _ ⟨_, _, _, outcome⟩
  simp only [rollingRequest, Request.ofRoutes] at outcome
  split at outcome <;> cases outcome

theorem parsed_rollingRequest {old new : Families}
    (parsedOld : ∀ name family, old.lookup name = some family → family.Parsed name)
    (parsedNew : ∀ name family, new.lookup name = some family → family.Parsed name) :
    (rollingRequest old new).Parsed := by
  intro job _ metricsGroup outcome
  simp only [rollingRequest, Request.ofRoutes] at outcome
  split at outcome <;> cases outcome
  · exact parsedOld
  · exact parsedNew

theorem contributions_rollingRequest (old new : Families) :
    (rollingRequest old new).contributions =
      [mapValues (MetricFamily.relabel (sampleInstance "0" "10.0.0.1:80")) old,
        mapValues (MetricFamily.relabel (sampleInstance "1" "10.0.0.2:80")) new] := by
  simp [rollingRequest, sampleInstances, Request.ofRoutes, Request.contributions,
    Request.contribution, metric]

theorem kind_of_exposed {sample : String} {type : MetricType} {value : Value} {name : GoString}
    {family : MetricFamily} {route : Route}
    (lookup : (mapValues (MetricFamily.relabel route) (exposed sample type value)).lookup name =
      some family) : family.getType.kind = type.kind := by
  rw [lookup_mapValues, Option.map_eq_some_iff] at lookup
  rcases lookup with ⟨original, held, rfl⟩
  rcases eq_of_lookup_singleton held with ⟨rfl, rfl⟩
  rfl

/-- A request of which both targets expose a gauge. -/
def gaugesRequest : Request :=
  rollingRequest (exposed "up" .gauge (.gauge ⟨0⟩)) (exposed "up" .gauge (.gauge ⟨1⟩))

theorem renders_iff_sample :
    ∃ state, gaugesRequest.system.Reachable state ∧ state.waited = true ∧
      ∃ result, state.shared.finish = .ok result ∧ gaugesRequest.Renders result := by
  have parsed : gaugesRequest.Parsed := parsed_rollingRequest
    (fun _ _ => parsed_exposed (by decide) rfl) (fun _ _ => parsed_exposed (by decide) rfl)
  have agree : KindsAgree gaugesRequest.contributions := by
    have contributions : gaugesRequest.contributions = _ := contributions_rollingRequest _ _
    rw [contributions]
    intro families familiesMem others othersMem name family other held otherHeld
    simp only [List.mem_cons, List.not_mem_nil, or_false] at familiesMem othersMem
    rcases familiesMem with rfl | rfl <;> rcases othersMem with rfl | rfl <;>
      rw [kind_of_exposed held, kind_of_exposed otherHeld]
  rcases gaugesRequest.exists_complete with ⟨state, reached, waited⟩
  rcases Request.finish_of_keeps reached waited (keeps_rollingRequest _ _) with ⟨result, finished⟩
  have renders := (Request.renders_iff gaugesRequest parsed).mpr (Or.inr agree)
  exact ⟨state, reached, waited, result, finished, renders state reached waited result finished⟩

/-- Two versions of an app that give one name to a gauge and to a counter are not written both. -/
theorem not_renders_always :
    ¬∀ request : Request, request.Parsed →
      ∀ state, request.system.Reachable state → state.waited = true →
        ∀ result, state.shared.finish = .ok result → request.Renders result := by
  intro always
  let request := rollingRequest (exposed "up" .gauge (.gauge ⟨0⟩))
    (exposed "up" .counter (.counter ⟨0⟩))
  have parsed : request.Parsed := parsed_rollingRequest
    (fun _ _ => parsed_exposed (by decide) rfl) (fun _ _ => parsed_exposed (by decide) rfl)
  rcases request.exists_complete with ⟨state, reached, waited⟩
  rcases Request.finish_of_keeps reached waited (keeps_rollingRequest _ _) with ⟨result, finished⟩
  have kinds := (always request parsed state reached waited result finished).kinds
  rcases Request.finish_of_waited reached waited finished with ⟨_, unmerged, perm, rfl⟩
  have agree := kindsAgree_of_merge
    (fun families familiesMem =>
      Request.allParsed_contributions parsed families (perm.mem_iff.mp familiesMem)) kinds
  have contributions : request.contributions = _ := contributions_rollingRequest _ _
  rw [contributions] at perm
  have same := agree _ (perm.mem_iff.mpr (List.Mem.head _))
    _ (perm.mem_iff.mpr (List.Mem.tail _ (List.Mem.head _))) (text "up") _ _ rfl rfl
  exact absurd same (by decide)

end Promfetcher
