import Promfetcher.Foundation.Lists
import Promfetcher.Expfmt.Sequence

/-!
# What is written is read back

The text parser on a whole exposition that `MetricFamilyToText` has written: every
family is found under its name. What is read back is what was written, up to what
the format itself does not keep.
-/

namespace Promfetcher

open Foundation

/-! ## The families that are returned -/

namespace Expfmt

namespace TextParser

/-- Families that all have metrics are all returned. -/
theorem nonEmptyFamilies_eq {p : TextParser}
    (nonempty : ∀ name family, p.store.families name = some family → family.metric ≠ []) :
    p.nonEmptyFamilies = p.metricFamiliesByName := by
  have kept (entries : List (Sigma fun _ : GoString => DtoFamily ℕ))
      (nonempty : ∀ entry ∈ entries, entry.2.metric ≠ []) :
      entries.foldl (fun families entry =>
        if entry.2.metric = [] then families.erase entry.1 else families)
          p.metricFamiliesByName = p.metricFamiliesByName := by
    induction entries with
    | nil => rfl
    | cons entry entries inductionHypothesis =>
        rw [List.forall_mem_cons] at nonempty
        rw [List.foldl_cons, if_neg nonempty.1, inductionHypothesis nonempty.2]
  exact kept _ fun entry entryMem => nonempty entry.1 entry.2 (AList.mem_lookup_iff.mpr entryMem)

end TextParser

end Expfmt

/-! ## What is read back of a family -/

section

open Expfmt

variable [Strconv]

/-- What is read of a count of a histogram: an integer, or a number that is none. -/
def rereadCount (float : Float64) (count : UInt64) : Option UInt64 × Option Float64 :=
  (TextParser.readCount (rereadFloat (numberValue (countOr float count)))).getD (none, none)

/-- A metric as it is read back. Quantiles and buckets without a number for their quantile or bound
are lost; the bucket that counts everything is added. -/
def Metric.reread (metric : Metric) : DtoMetric :=
  match metric.value with
  | .counter value =>
      { label := metric.label, counter := some (rereadFloat value),
        timestampMs := metric.timestampMs }
  | .gauge value =>
      { label := metric.label, gauge := some (rereadFloat value),
        timestampMs := metric.timestampMs }
  | .untyped value =>
      { label := metric.label, untyped := some (rereadFloat value),
        timestampMs := metric.timestampMs }
  | .summary sampleCount sampleSum quantile =>
      { label := metric.label
        summary := some {
          sampleCount := some (Strconv.uint64 (rereadFloat (Strconv.float64 sampleCount)))
          sampleSum := some (rereadFloat sampleSum)
          quantile := (quantile.filter fun q => !q.quantile.isNaN).map fun q =>
            ⟨rereadFloat q.quantile, rereadFloat q.value⟩ }
        timestampMs := metric.timestampMs }
  | .histogram sampleCount sampleCountFloat sampleSum bucket =>
      { label := metric.label
        histogram := some (TextParser.normalizeHistogram {
          sampleCount := (rereadCount sampleCountFloat sampleCount).1
          sampleCountFloat := (rereadCount sampleCountFloat sampleCount).2
          sampleSum := some (rereadFloat sampleSum)
          bucket := ((writtenBuckets sampleCount sampleCountFloat bucket).filter fun b =>
            !b.upperBound.isNaN).map fun b =>
              ⟨(rereadCount b.cumulativeCountFloat b.cumulativeCount).1,
                (rereadCount b.cumulativeCountFloat b.cumulativeCount).2,
                rereadFloat b.upperBound⟩ })
        timestampMs := metric.timestampMs }

/-- A family as it is read back. -/
def MetricFamily.reread (family : MetricFamily) : DtoFamily DtoMetric where
  help := rereadHelp family.help
  type := some (rereadType family.getType)
  metric := family.metric.map Metric.reread

end

namespace Expfmt

section

variable [Strconv]

/-- The samples of a metric change its value only. -/
theorem readAll_eq {Content : Type} {metricType : MetricType} {labels : List LabelPair}
    {samples : List Sample} (make : Content → DtoMetric) (read : Sample → Content → Content)
    (start : Content) (nonempty : samples ≠ [])
    (first : ∀ sample ∈ samples,
      sample.readInto metricType { label := labels } = make (read sample start))
    (step : ∀ sample ∈ samples, ∀ content,
      sample.readInto metricType (make content) = make (read sample content)) :
    readAll metricType labels samples =
      make (samples.foldl (fun content sample => read sample content) start) := by
  have steps (others : List Sample) (content : Content)
      (step : ∀ sample ∈ others, ∀ content,
        sample.readInto metricType (make content) = make (read sample content)) :
      others.foldl (fun metric sample => sample.readInto metricType metric) (make content) =
        make (others.foldl (fun content sample => read sample content) content) := by
    induction others generalizing content with
    | nil => rfl
    | cons other others inductionHypothesis =>
        rw [List.forall_mem_cons] at step
        rw [List.foldl_cons, List.foldl_cons, step.1, inductionHypothesis _ step.2]
  rcases List.exists_cons_of_ne_nil nonempty with ⟨sample, others, rfl⟩
  rw [List.forall_mem_cons] at first step
  rw [readAll, List.foldl_cons, List.foldl_cons, first.1, steps others _ step.2]

theorem readSummary_quantiles (name : GoString) (metric : Metric) (quantile : List Quantile)
    (summary : DtoSummary) :
    (quantile.map (quantileSample name metric)).foldl
        (fun summary sample => sample.readSummary summary) summary =
      { summary with quantile := summary.quantile ++ (quantile.filter fun q =>
          !q.quantile.isNaN).map fun q => ⟨rereadFloat q.quantile, rereadFloat q.value⟩ } := by
  induction quantile generalizing summary with
  | nil => simp
  | cons q quantile inductionHypothesis =>
      have step : (quantileSample name metric q).readSummary summary =
          if !q.quantile.isNaN then { summary with
            quantile := summary.quantile ++ [⟨rereadFloat q.quantile, rereadFloat q.value⟩] }
          else summary := by
        have notCount : ([] : GoString) ≠ text "_count" := by decide
        have notSum : ([] : GoString) ≠ text "_sum" := by decide
        have isNaN : (quantileSample name metric q).limit.isNaN = q.quantile.isNaN :=
          isNaN_rereadFloat q.quantile
        rw [Sample.readSummary, isNaN, show (quantileSample name metric q).suffix = [] from rfl,
          if_neg notCount, if_neg notSum]
        rfl
      rw [List.map_cons, List.foldl_cons, inductionHypothesis, step]
      cases isNaN : q.quantile.isNaN <;> simp [isNaN]

/-- The metric of the parser with this summary as its value. -/
def summaryOf (metric : Metric) (summary : DtoSummary) : DtoMetric :=
  { label := metric.label, summary := some summary, timestampMs := metric.timestampMs }

/-- A summary is read back. -/
theorem readOf_summary {metric : Metric} {sampleCount : UInt64} {sampleSum : Float64}
    {quantile : List Quantile} (value : metric.value = .summary sampleCount sampleSum quantile)
    (name : GoString) : readOf .summary name metric = metric.reread := by
  have samples := metricSamples_eq name metric
  rw [value] at samples
  have isMetric : ∀ sample ∈ metricSamples name metric, sample.metric = metric :=
    fun sample sampleMem => (eq_of_mem_metricSamples sampleMem).2
  have isRead : readAll .summary metric.label (metricSamples name metric) = _ :=
    readAll_eq (summaryOf metric) Sample.readSummary {} (by rw [samples]; simp)
    (fun sample sampleMem => by
      rw [Sample.readInto, isMetric sample sampleMem]
      dsimp only [Sample.readValue]
      rw [Option.or_none]
      rfl)
    (fun sample sampleMem summary => by
      rw [Sample.readInto, isMetric sample sampleMem]
      dsimp only [Sample.readValue, summaryOf]
      rw [Option.or_self]
      rfl)
  rw [readOf, isRead, samples, List.foldl_append, readSummary_quantiles, Metric.reread, value]
  rfl

/-- The metric of the parser with this histogram as its value. -/
def histogramOf (metric : Metric) (histogram : DtoHistogram) : DtoMetric :=
  { label := metric.label, histogram := some histogram, timestampMs := metric.timestampMs }

theorem readHistogram_buckets (name : GoString) (metric : Metric) (bucket : List Bucket)
    (histogram : DtoHistogram) :
    (bucket.map (bucketSample name metric)).foldl
        (fun histogram sample => sample.readHistogram histogram) histogram =
      { histogram with bucket := histogram.bucket ++ (bucket.filter fun b =>
          !b.upperBound.isNaN).map fun b =>
            ⟨(rereadCount b.cumulativeCountFloat b.cumulativeCount).1,
              (rereadCount b.cumulativeCountFloat b.cumulativeCount).2,
              rereadFloat b.upperBound⟩ } := by
  induction bucket generalizing histogram with
  | nil => simp
  | cons b bucket inductionHypothesis =>
      have step : (bucketSample name metric b).readHistogram histogram =
          if !b.upperBound.isNaN then { histogram with
            bucket := histogram.bucket ++
              [⟨(rereadCount b.cumulativeCountFloat b.cumulativeCount).1,
                (rereadCount b.cumulativeCountFloat b.cumulativeCount).2,
                rereadFloat b.upperBound⟩] }
          else histogram := by
        have notCount : text "_bucket" ≠ text "_count" := by decide
        have notSum : text "_bucket" ≠ text "_sum" := by decide
        have isNaN : (bucketSample name metric b).limit.isNaN = b.upperBound.isNaN :=
          isNaN_rereadFloat b.upperBound
        rw [Sample.readHistogram, isNaN,
          show (bucketSample name metric b).suffix = text "_bucket" from rfl]
        dsimp only
        rw [if_neg notCount, if_neg notSum]
        rfl
      rw [List.map_cons, List.foldl_cons, inductionHypothesis, step]
      cases isNaN : b.upperBound.isNaN <;> simp [isNaN]

theorem readHistogram_count {sample : Sample} (isCount : sample.suffix = text "_count")
    {histogram : DtoHistogram} (noCount : histogram.sampleCount = none)
    (noCountFloat : histogram.sampleCountFloat = none) :
    sample.readHistogram histogram = { histogram with
      sampleCount := ((TextParser.readCount sample.number).getD (none, none)).1
      sampleCountFloat := ((TextParser.readCount sample.number).getD (none, none)).2 } := by
  rw [Sample.readHistogram]
  dsimp only
  rw [if_pos isCount, noCount, noCountFloat, Option.or_none, Option.or_none]

theorem readInto_of_ofHistogram {metricType : MetricType}
    (isHistogram : ofHistogram metricType = true) (sample : Sample) (metric : DtoMetric) :
    sample.readInto metricType metric = { metric with
      histogram := some (sample.readHistogram (metric.histogram.getD {}))
      timestampMs := sample.metric.timestampMs.or metric.timestampMs } := by
  cases metricType <;> first | rfl | cases isHistogram

/-- A histogram is read back, and then normalized. -/
theorem readOf_histogram {metricType : MetricType} (isHistogram : ofHistogram metricType = true)
    {metric : Metric} {sampleCount : UInt64} {sampleCountFloat sampleSum : Float64}
    {bucket : List Bucket}
    (value : metric.value = .histogram sampleCount sampleCountFloat sampleSum bucket)
    (name : GoString) :
    TextParser.normalizeMetric (readOf metricType name metric) = metric.reread := by
  have samples := metricSamples_eq name metric
  rw [value] at samples
  have isMetric : ∀ sample ∈ metricSamples name metric, sample.metric = metric :=
    fun sample sampleMem => (eq_of_mem_metricSamples sampleMem).2
  have isRead : readAll metricType metric.label (metricSamples name metric) = _ :=
    readAll_eq (histogramOf metric) Sample.readHistogram {} (by rw [samples]; simp)
    (fun sample sampleMem => by
      rw [readInto_of_ofHistogram isHistogram, isMetric sample sampleMem, Option.or_none]
      rfl)
    (fun sample sampleMem histogram => by
      rw [readInto_of_ofHistogram isHistogram, isMetric sample sampleMem]
      dsimp only [histogramOf]
      rw [Option.or_self]
      rfl)
  rw [readOf, isRead, samples, List.foldl_append, readHistogram_buckets, Metric.reread, value,
    List.foldl_cons, List.foldl_cons, List.foldl_nil, readHistogram_count rfl rfl rfl]
  rfl

/-- The only line of a metric that is a counter, a gauge or untyped. -/
def singleSample (name : GoString) (metric : Metric) (number : Float64) : Sample where
  name
  suffix := []
  metric
  additionalLabel := none
  value := .float number

/-- A metric with a single number is read back. -/
theorem readOf_single {metricType : MetricType} {metric : Metric} {number : Float64}
    {name : GoString} (isSingle : metricSamples name metric = [singleSample name metric number]) :
    readOf metricType name metric =
      { (singleSample name metric number).readValue metricType { label := metric.label } with
        timestampMs := metric.timestampMs } := by
  have untimed : ((singleSample name metric number).readValue metricType
      { label := metric.label }).timestampMs = none := by
    cases metricType <;> rfl
  rw [readOf, isSingle, readAll, List.foldl_cons, List.foldl_nil, Sample.readInto, untimed,
    Option.or_none]
  rfl

/-- Every metric is read back, once its histogram is normalized. -/
theorem normalizeMetric_readOf {metric : Metric} {metricType : MetricType}
    (isKind : metric.value.kind = metricType.kind) (name : GoString) :
    TextParser.normalizeMetric (readOf (rereadType metricType) name metric) = metric.reread := by
  have samples := metricSamples_eq name metric
  cases value : metric.value with
  | counter number =>
      rw [value] at samples isKind
      have isType : rereadType metricType = .counter := by
        cases metricType <;> first | rfl | cases isKind
      rw [isType, readOf_single samples, Metric.reread, value]
      rfl
  | gauge number =>
      rw [value] at samples isKind
      have isType : rereadType metricType = .gauge := by
        cases metricType <;> first | rfl | cases isKind
      rw [isType, readOf_single samples, Metric.reread, value]
      rfl
  | untyped number =>
      rw [value] at samples isKind
      have isType : rereadType metricType = .untyped := by
        cases metricType <;> first | rfl | cases isKind
      rw [isType, readOf_single samples, Metric.reread, value]
      rfl
  | summary sampleCount sampleSum quantile =>
      rw [value] at isKind
      have isType : rereadType metricType = .summary := by
        rw [kind_eq_summary.mp isKind.symm]
        rfl
      rw [isType, readOf_summary value, Metric.reread, value]
      rfl
  | histogram sampleCount sampleCountFloat sampleSum bucket =>
      rw [value] at isKind
      refine readOf_histogram ?_ value name
      rw [(rereadType_eq _).2.1]
      exact kind_eq_histogram.mp isKind.symm

/-! ## The whole exposition -/

namespace TextParser

/-- Whatever is listed is normalized: what is not filed has no histogram. -/
theorem getElem?_normalized {p : TextParser} (tidy : p.store.Tidy) {name : GoString}
    {family : DtoFamily ℕ} (held : p.store.families name = some family) {position : ℕ}
    (positionMem : position ∈ family.metric) :
    p.normalized[position]? = p.metrics[position]?.map normalizeMetric := by
  have filed (sign : UInt64) (position : ℕ) (entryMem : ⟨sign, position⟩ ∈ p.histograms.entries) :
      p.store.histograms sign = some position :=
    AList.mem_lookup_iff.mpr entryMem
  have distinct : (p.histograms.entries.map Sigma.snd).Nodup := by
    refine List.Nodup.map_on ?_ p.histograms.nodupKeys.nodup
    rintro ⟨sign, first⟩ firstMem ⟨other, second⟩ secondMem same
    cases same
    cases tidy.distinct (filed _ _ firstMem) (filed _ _ secondMem)
    rfl
  have normalized : p.normalized = (p.histograms.entries.map Sigma.snd).foldl
      (fun metrics place => metrics.modify place normalizeMetric) p.metrics := by
    rw [List.foldl_map]
    rfl
  rw [normalized, getElem?_foldl_modify _ distinct]
  split_ifs with isFiled
  · rfl
  · cases here : p.metrics[position]? with
    | none => rfl
    | some metric =>
        have noHistogram : metric.histogram = none := by
          by_contra isHistogram
          rcases tidy.filed held position positionMem metric here isHistogram with ⟨sign, isHeld⟩
          exact isFiled (List.mem_map_of_mem (AList.mem_lookup_iff.mp isHeld))
        rw [Option.map_some, normalizeMetric, noHistogram, Option.map_none, ← noHistogram]

/-- The families that are returned, once these have been read. -/
theorem lookup_families_of_hasRead {p : TextParser}
    {order : List (Sigma fun _ : GoString => MetricFamily)}
    (parsed : ∀ entry ∈ order, entry.2.Parsed entry.1) (hasRead : p.store.HasRead order)
    (name : GoString) :
    p.families.lookup name = (order.dlookup name).map MetricFamily.reread := by
  have nonempty : ∀ name family, p.store.families name = some family → family.metric ≠ [] := by
    rintro name family held isEmpty
    have contents := hasRead.contents name
    rw [Store.contents, held, Option.map_some, eq_comm, Option.map_eq_some_iff] at contents
    rcases contents with ⟨read, lookup, same⟩
    have noMetrics : read.metric.map (readOf (rereadType read.getType) name) = [] := by
      rw [show read.metric.map _ = _ from congrArg DtoFamily.metric same, Store.listed, isEmpty]
      rfl
    exact (parsed _ (List.of_mem_dlookup lookup)).metric_ne_nil (List.map_eq_nil_iff.mp noMetrics)
  have contents := hasRead.contents name
  rw [families, lookup_mapValues, nonEmptyFamilies_eq nonempty]
  cases lookup : order.dlookup name with
  | none =>
      rw [lookup, Option.map_none, Store.contents, Option.map_eq_none_iff] at contents
      rw [show p.metricFamiliesByName.lookup name = none from contents]
      rfl
  | some read =>
      rw [lookup, Option.map_some, Store.contents, Option.map_eq_some_iff] at contents
      rcases contents with ⟨family, held, same⟩
      have isMetric : family.metric.filterMap (p.normalized[·]?) =
          (p.store.listed family).map normalizeMetric := by
        rw [Store.listed, List.map_filterMap]
        exact List.filterMap_congr fun position positionMem =>
          getElem?_normalized hasRead.tidy held positionMem
      have isListed : p.store.listed family = _ := congrArg DtoFamily.metric same
      have kinds := (parsed _ (List.of_mem_dlookup lookup)).kinds
      have reread : (readFamily name read).metric.map normalizeMetric =
          read.metric.map Metric.reread := by
        rw [readFamily, List.map_map]
        exact List.map_congr_left fun metric metricMem =>
          normalizeMetric_readOf (kinds metric metricMem) name
      have isHelp : family.help = rereadHelp read.help := congrArg DtoFamily.help same
      have isType : family.type = some (rereadType read.getType) := congrArg DtoFamily.type same
      rw [show p.metricFamiliesByName.lookup name = some family from held, Option.map_some,
        isMetric, isListed, reread, isHelp, isType]
      rfl

/-- All families and the empty lines behind them. -/
theorem reaches_metrics {done rest : List (Sigma fun _ : GoString => MetricFamily)}
    (all : AllWritable (done ++ rest)) {p : TextParser} (hasRead : p.store.HasRead done)
    (pairs : p.currentLabelPairs = []) (isInput : p.input = writeLines (Api.metrics rest)) :
    ∃ q, Machine.Reaches next (.startOfLine, p) (.startOfLine, q) ∧ q.input = [] ∧
      q.store.HasRead (done ++ rest) := by
  induction rest generalizing done p with
  | nil => exact ⟨p, .refl, isInput, by rwa [List.append_nil]⟩
  | cons entry rest inductionHypothesis =>
      have isInput : p.input = writeLines ((metricFamilyToText entry.2).1 ++ [.blank]) ++
          writeLines (Api.metrics rest) := by
        rw [isInput, Api.metrics, List.flatMap_cons]
        simp [writeLines, Api.metrics]
      rcases reaches_family all hasRead pairs isInput with
        ⟨q, reaches, isRest, pairs, hasRead⟩
      rw [List.append_cons] at all ⊢
      rcases inductionHypothesis all hasRead pairs isRest with ⟨last, more, isEnd, hasRead⟩
      exact ⟨last, reaches.trans more, isEnd, hasRead⟩

theorem hasRead_initial (input : GoString) : (store { input }).HasRead [] := by
  have isEmpty {Key Value : Type} [DecidableEq Key] (key : Key) :
      AList.lookup key (∅ : AList fun _ : Key => Value) = none := AList.lookup_empty key
  refine ⟨⟨?_, ?_, ?_, ?_⟩, fun _ => rfl, ?_, ?_⟩
  · intro name family held
    cases (isEmpty name).symm.trans held
  · intro name family held
    cases (isEmpty name).symm.trans held
  · intro sign position held
    cases (isEmpty sign).symm.trans held
  · intro sign other position held
    cases (isEmpty sign).symm.trans held
  · exact fun sign isHeld => absurd (isEmpty sign) isHeld
  · exact fun sign isHeld => absurd (isEmpty sign) isHeld

end TextParser

/-- The parser comes to the end of what is written of families, and has read them all. -/
theorem exists_hasRead {order : List (Sigma fun _ : GoString => MetricFamily)}
    (all : AllWritable order) :
    ∃ p : TextParser, textToMetricFamilies (writeLines (Api.metrics order)) =
      some (.ok p.families) ∧ p.store.HasRead order := by
  have initial := TextParser.hasRead_initial (writeLines (Api.metrics order))
  rcases @TextParser.reaches_metrics _ [] order all _ initial rfl rfl with
    ⟨last, reaches, isEnd, hasRead⟩
  refine ⟨last.newLine false, ?_, hasRead⟩
  have stops : Machine.Stops TextParser.next (.startOfLine, last) (.ok (last.newLine false)) := by
    unfold Machine.Stops TextParser.next TextParser.step TextParser.startOfLine
    rw [isEnd]
    rfl
  have enough := TextParser.isSome_textToMetricFamilies (writeLines (Api.metrics order))
  rw [textToMetricFamilies, Option.isSome_map] at enough
  rw [textToMetricFamilies, Machine.run_of_reaches reaches stops enough]
  rfl

/-- What is written of families is read back, as `reread` says. -/
theorem textToMetricFamilies_writeLines (order : List (Sigma fun _ : GoString => MetricFamily))
    (all : AllWritable order) :
    ∃ families, textToMetricFamilies (writeLines (Api.metrics order)) = some (.ok families) ∧
      ∀ name, families.lookup name = (order.dlookup name).map MetricFamily.reread := by
  rcases exists_hasRead all with ⟨p, returns, hasRead⟩
  have parsed : ∀ entry ∈ order, entry.2.Parsed entry.1 :=
    fun entry entryMem => (all.writable entry entryMem).parsed
  exact ⟨p.families, returns, TextParser.lookup_families_of_hasRead parsed hasRead⟩

end

/-- A label with the name of a job. -/
def jobLabel (job : String) : LabelPair :=
  ⟨some (text "job"), some (text job)⟩

/-- The families of a target with two jobs: a summary, a histogram with a bucket besides the one
that counts everything, and a gauge, which comes with a time. -/
def shopFamilies : List (Sigma fun _ : GoString => MetricFamily) :=
  [⟨text "rpc",
      { name := some (text "rpc")
        help := some (text "calls")
        type := some .summary
        metric :=
          [{ label := [jobLabel "a"], value := .summary 1 .one [⟨.one, .zero⟩] },
            { label := [jobLabel "b"], value := .summary 0 .zero [] }] }⟩,
    ⟨text "lat",
      { name := some (text "lat")
        type := some .histogram
        metric :=
          [{ label := [jobLabel "a"]
             value := .histogram 1 .zero .one [⟨0, .zero, .one⟩, ⟨1, .zero, .infinity⟩] },
            { label := [jobLabel "b"]
              value := .histogram 0 .zero .zero [⟨0, .zero, .infinity⟩] }] }⟩,
    ⟨text "up",
      { name := some (text "up")
        type := some .gauge
        metric :=
          [{ label := [jobLabel "a"], value := .gauge .one, timestampMs := some 12 }] }⟩]

theorem allWritable_shopFamilies : AllWritable shopFamilies := by
  decide +kernel

theorem textToMetricFamilies_writeLines_shop :
    ∃ families, @textToMetricFamilies Strconv.sample
        (@writeLines Strconv.sample (Api.metrics shopFamilies)) = some (.ok families) ∧
      ∀ name, families.lookup name =
        (shopFamilies.dlookup name).map (@MetricFamily.reread Strconv.sample) :=
  @textToMetricFamilies_writeLines Strconv.sample shopFamilies allWritable_shopFamilies

end Expfmt

end Promfetcher
