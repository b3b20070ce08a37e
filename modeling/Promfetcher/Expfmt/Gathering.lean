import Promfetcher.Expfmt.WholeLines

/-!
# Gathering the samples of a metric

The samples that are written of one metric are gathered into one metric again, and
the metrics of a family are listed in their order. This is shown of the operations
that lines stand for, and so of the text parser.
-/

namespace Promfetcher

open Foundation

namespace Expfmt

/-! ## The samples of a metric -/

/-- The sample that a line holds. -/
def sampleOf : Line → Option Sample
  | .sample sample => some sample
  | _ => none

/-- The samples that are written of a metric. -/
def metricSamples (name : GoString) (metric : Metric) : List Sample :=
  (metricLines name metric).filterMap sampleOf

theorem metricLines_eq (name : GoString) (metric : Metric) :
    metricLines name metric = (metricSamples name metric).map Line.sample := by
  have samples (lines : List Line) (every : ∀ line ∈ lines, ∃ sample, line = .sample sample) :
      lines = (lines.filterMap sampleOf).map Line.sample := by
    induction lines with
    | nil => rfl
    | cons line lines inductionHypothesis =>
        rw [List.forall_mem_cons] at every
        rcases every.1 with ⟨sample, rfl⟩
        rw [List.filterMap_cons_some (by rfl), List.map_cons, ← inductionHypothesis every.2]
  refine samples _ fun line lineMem => ?_
  unfold metricLines summaryLines histogramLines at lineMem
  cases value : metric.value with
  | counter number | gauge number | untyped number =>
      simp only [value, List.mem_singleton] at lineMem
      exact ⟨_, lineMem⟩
  | summary sampleCount sampleSum quantile =>
      simp only [value, List.mem_append, List.mem_map, List.mem_cons, List.not_mem_nil,
        or_false] at lineMem
      rcases lineMem with ⟨_, _, rfl⟩ | rfl | rfl <;> exact ⟨_, rfl⟩
  | histogram sampleCount sampleCountFloat sampleSum bucket =>
      simp only [value, List.mem_append, List.mem_map, List.mem_cons, List.not_mem_nil,
        or_false] at lineMem
      rcases lineMem with (⟨_, _, rfl⟩ | lineMem) | rfl | rfl
      · exact ⟨_, rfl⟩
      · split at lineMem
        · cases lineMem
        · exact ⟨_, List.mem_singleton.mp lineMem⟩
      · exact ⟨_, rfl⟩
      · exact ⟨_, rfl⟩

/-- The buckets that are written, with the one that counts everything. -/
def writtenBuckets (sampleCount : UInt64) (sampleCountFloat : Float64) (bucket : List Bucket) :
    List Bucket :=
  bucket ++ if bucket.any fun b => b.upperBound == Float64.infinity then []
    else [⟨sampleCount, sampleCountFloat, .infinity⟩]

/-- The line of a quantile. -/
def quantileSample (name : GoString) (metric : Metric) (q : Quantile) : Sample :=
  ⟨name, [], metric, some (quantileLabel, q.quantile), .float q.value⟩

/-- The line of a bucket. -/
def bucketSample (name : GoString) (metric : Metric) (b : Bucket) : Sample :=
  ⟨name, text "_bucket", metric, some (bucketLabel, b.upperBound),
    countOr b.cumulativeCountFloat b.cumulativeCount⟩

theorem metricSamples_eq (name : GoString) (metric : Metric) :
    metricSamples name metric =
      match metric.value with
      | .counter value | .gauge value | .untyped value =>
          [⟨name, [], metric, none, .float value⟩]
      | .summary sampleCount sampleSum quantile =>
          quantile.map (quantileSample name metric) ++
            [⟨name, text "_sum", metric, none, .float sampleSum⟩,
              ⟨name, text "_count", metric, none, .count sampleCount⟩]
      | .histogram sampleCount sampleCountFloat sampleSum bucket =>
          (writtenBuckets sampleCount sampleCountFloat bucket).map (bucketSample name metric) ++
            [⟨name, text "_sum", metric, none, .float sampleSum⟩,
              ⟨name, text "_count", metric, none, countOr sampleCountFloat sampleCount⟩] := by
  have ofMap {Item : Type} (items : List Item) (sample : Item → Sample) :
      (items.map fun item => Line.sample (sample item)).filterMap sampleOf = items.map sample := by
    rw [List.filterMap_map, ← List.filterMap_eq_map]
    rfl
  unfold metricSamples metricLines
  cases metric.value with
  | counter number | gauge number | untyped number => rfl
  | summary sampleCount sampleSum quantile =>
      dsimp only
      rw [summaryLines, List.filterMap_append, ofMap]
      rfl
  | histogram sampleCount sampleCountFloat sampleSum bucket =>
      dsimp only
      rw [histogramLines, List.filterMap_append, List.filterMap_append, ofMap, writtenBuckets,
        List.map_append]
      split_ifs <;> rfl

/-- All samples of a metric carry its name and its labels. -/
theorem eq_of_mem_metricSamples {name : GoString} {metric : Metric} {sample : Sample}
    (sampleMem : sample ∈ metricSamples name metric) :
    sample.name = name ∧ sample.metric = metric := by
  rw [metricSamples_eq] at sampleMem
  cases value : metric.value with
  | counter number | gauge number | untyped number =>
      simp only [value, List.mem_singleton] at sampleMem
      rw [sampleMem]
      exact ⟨rfl, rfl⟩
  | summary sampleCount sampleSum quantile =>
      simp only [value, List.mem_append, List.mem_map, List.mem_cons, List.not_mem_nil,
        or_false] at sampleMem
      rcases sampleMem with ⟨_, _, rfl⟩ | rfl | rfl <;> exact ⟨rfl, rfl⟩
  | histogram sampleCount sampleCountFloat sampleSum bucket =>
      simp only [value, List.mem_append, List.mem_map, List.mem_cons, List.not_mem_nil,
        or_false] at sampleMem
      rcases sampleMem with ⟨_, _, rfl⟩ | rfl | rfl <;> exact ⟨rfl, rfl⟩

/-- There is a sample of every metric, and several only of a summary or a histogram. -/
theorem metricSamples_eq_cons (name : GoString) {metric : Metric} {metricType : MetricType}
    (isKind : metric.value.kind = metricType.kind) :
    ∃ sample samples, metricSamples name metric = sample :: samples ∧
      (samples = [] ∨ ofLines metricType = true) := by
  have nonempty {items : List Sample} (first second : Sample) :
      ∃ sample samples, items ++ [first, second] = sample :: samples :=
    List.exists_cons_of_ne_nil (by simp)
  rw [metricSamples_eq]
  cases value : metric.value with
  | counter number | gauge number | untyped number => exact ⟨_, _, rfl, Or.inl rfl⟩
  | summary sampleCount sampleSum quantile =>
      rcases nonempty _ _ with ⟨sample, samples, isCons⟩
      refine ⟨sample, samples, isCons, Or.inr ?_⟩
      rw [value] at isKind
      cases metricType <;> first | rfl | cases isKind
  | histogram sampleCount sampleCountFloat sampleSum bucket =>
      rcases nonempty _ _ with ⟨sample, samples, isCons⟩
      refine ⟨sample, samples, isCons, Or.inr ?_⟩
      rw [value] at isKind
      cases metricType <;> first | rfl | cases isKind

/-! ## What the store holds of the families -/

theorem families_file (store : Store) (metricType : MetricType) (sign : UInt64) (position : ℕ) :
    (store.file metricType sign position).families = store.families := by
  unfold Store.file
  split_ifs <;> rfl

/-- A new metric of the family with the name; behind it there may be metrics that nothing refers
to. -/
def Store.add (store : Store) (metricType : MetricType) (name : GoString) (sign : UInt64)
    (metric : DtoMetric) (unused : List DtoMetric) : Store :=
  let longer : Store := { store with metrics := store.metrics ++ metric :: unused }
  (longer.file metricType sign store.metrics.length).list name store.metrics.length

theorem modify_add (store : Store) (metricType : MetricType) (name : GoString) (sign : UInt64)
    (metric : DtoMetric) (unused : List DtoMetric) (change : DtoMetric → DtoMetric) :
    (store.add metricType name sign metric unused).modify store.metrics.length change =
      store.add metricType name sign (change metric) unused := by
  unfold Store.add Store.file Store.modify
  dsimp only
  rw [← modify_length_append]
  split_ifs <;> rfl

theorem found_add {metricType : MetricType} (isOfLines : ofLines metricType = true)
    (store : Store) (name : GoString) (sign : UInt64) (metric : DtoMetric)
    (unused : List DtoMetric) :
    (store.add metricType name sign metric unused).found metricType sign =
      some store.metrics.length := by
  unfold Store.found Store.add Store.file
  dsimp only
  by_cases isSummary : metricType = .summary
  · rw [if_pos isSummary, if_pos isSummary]
    exact Function.update_self _ _ _
  · have isHistogram : ofHistogram metricType = true := by
      simpa [ofLines, isSummary] using isOfLines
    rw [if_neg isSummary, if_pos isHistogram, if_neg isSummary, if_pos isHistogram]
    exact Function.update_self _ _ _

namespace Store

/-- The metrics that a family lists. -/
def listed (store : Store) (family : DtoFamily ℕ) : List DtoMetric :=
  family.metric.filterMap (store.metrics[·]?)

/-- The positions are those of metrics, every histogram that is listed is found by its signature,
and no two signatures stand for one histogram. -/
structure Tidy (store : Store) : Prop where
  bounded : ∀ {name : GoString} {family : DtoFamily ℕ}, store.families name = some family →
    ∀ position ∈ family.metric, position < store.metrics.length
  filed : ∀ {name : GoString} {family : DtoFamily ℕ}, store.families name = some family →
    ∀ position ∈ family.metric, ∀ metric, store.metrics[position]? = some metric →
      metric.histogram ≠ none → ∃ sign, store.histograms sign = some position
  inside : ∀ {sign : UInt64} {position : ℕ}, store.histograms sign = some position →
    position < store.metrics.length
  distinct : ∀ {sign other : UInt64} {position : ℕ}, store.histograms sign = some position →
    store.histograms other = some position → sign = other

variable {store : Store} {metricType : MetricType} {name : GoString} {sign : UInt64}
  {metric : DtoMetric} {unused : List DtoMetric}

theorem families_add (other : GoString) :
    (store.add metricType name sign metric unused).families other =
      if other = name then some { store.family name with
        metric := (store.family name).metric ++ [store.metrics.length] }
      else store.families other := by
  unfold add
  dsimp only
  rw [list, families_setFamily, family, families_file]
  rfl

theorem metrics_add : (store.add metricType name sign metric unused).metrics =
    store.metrics ++ metric :: unused := by
  unfold add list setFamily file
  dsimp only
  split_ifs <;> rfl

theorem histograms_add (other : UInt64) :
    (store.add metricType name sign metric unused).histograms other =
      if ofHistogram metricType = true ∧ other = sign then some store.metrics.length
      else store.histograms other := by
  unfold add list setFamily file
  dsimp only
  by_cases isSummary : metricType = .summary
  · subst isSummary
    rfl
  · rw [if_neg isSummary]
    by_cases isHistogram : ofHistogram metricType = true
    · rw [if_pos isHistogram, fileHistogram]
      simp [Function.update_apply, isHistogram]
    · rw [if_neg isHistogram, if_neg (not_and_of_not_left _ isHistogram)]

theorem summaries_add (other : UInt64) :
    (store.add metricType name sign metric unused).summaries other =
      if metricType = .summary ∧ other = sign then some store.metrics.length
      else store.summaries other := by
  unfold add list setFamily file
  dsimp only
  by_cases isSummary : metricType = .summary
  · rw [if_pos isSummary, fileSummary]
    simp [Function.update_apply, isSummary]
  · rw [if_neg isSummary, if_neg (not_and_of_not_left _ isSummary)]
    split_ifs <;> rfl

theorem getElem?_metrics_add {position : ℕ} (inside : position < store.metrics.length) :
    (store.add metricType name sign metric unused).metrics[position]? =
      store.metrics[position]? := by
  rw [metrics_add, List.getElem?_append_left inside]

theorem getElem?_length_add :
    (store.add metricType name sign metric unused).metrics[store.metrics.length]? =
      some metric := by
  rw [metrics_add, List.getElem?_append_right le_rfl, Nat.sub_self, List.getElem?_cons_zero]

theorem Tidy.add (tidy : store.Tidy) (held : ∃ family, store.families name = some family)
    (missing : ofHistogram metricType = true → store.histograms sign = none)
    (ofType : metric.histogram ≠ none → ofHistogram metricType = true) :
    (store.add metricType name sign metric unused).Tidy := by
  rcases held with ⟨family, held⟩
  have isFamily : store.family name = family := by
    rw [Store.family, held, Option.getD_some]
  have longer : store.metrics.length <
      (store.add metricType name sign metric unused).metrics.length := by
    rw [metrics_add, List.length_append, List.length_cons]
    omega
  -- a position is an earlier one of the family or that of the new metric
  have positions {other : GoString} {found : DtoFamily ℕ}
      (lookup : (store.add metricType name sign metric unused).families other = some found)
      {position : ℕ} (positionMem : position ∈ found.metric) :
      (∃ family, store.families other = some family ∧ position ∈ family.metric) ∨
        position = store.metrics.length := by
    rw [families_add] at lookup
    split_ifs at lookup with same
    · cases lookup
      rw [List.mem_append, List.mem_singleton, isFamily] at positionMem
      exact positionMem.imp (fun old => ⟨family, same ▸ held, old⟩) id
    · exact Or.inl ⟨found, lookup, positionMem⟩
  refine ⟨?_, ?_, ?_, ?_⟩
  · intro other found lookup position positionMem
    rcases positions lookup positionMem with ⟨family, held, old⟩ | rfl
    · exact (tidy.bounded held position old).trans longer
    · exact longer
  · intro other found lookup position positionMem item here isHistogram
    rcases positions lookup positionMem with ⟨family, held, old⟩ | rfl
    · rw [getElem?_metrics_add (tidy.bounded held position old)] at here
      rcases tidy.filed held position old item here isHistogram with ⟨filedUnder, isFiled⟩
      refine ⟨filedUnder, ?_⟩
      rw [histograms_add, if_neg]
      · exact isFiled
      · rintro ⟨isHistogram, rfl⟩
        cases (missing isHistogram).symm.trans isFiled
    · cases getElem?_length_add.symm.trans here
      refine ⟨sign, ?_⟩
      rw [histograms_add, if_pos ⟨ofType isHistogram, rfl⟩]
  · intro other position isFiled
    rw [histograms_add] at isFiled
    split_ifs at isFiled
    · cases isFiled
      exact longer
    · exact (tidy.inside isFiled).trans longer
  · intro first second position isFiled isFiledToo
    rw [histograms_add] at isFiled isFiledToo
    split_ifs at isFiled isFiledToo with isNew isNewToo isNewToo
    · rw [isNew.2, isNewToo.2]
    · cases isFiled
      exact absurd (tidy.inside isFiledToo) (lt_irrefl _)
    · cases isFiledToo
      exact absurd (tidy.inside isFiled) (lt_irrefl _)
    · exact tidy.distinct isFiled isFiledToo

/-- The families with the metrics that they list. -/
def contents (store : Store) (name : GoString) : Option (DtoFamily DtoMetric) :=
  (store.families name).map fun family => { family with metric := store.listed family }

theorem listed_add (tidy : store.Tidy) {other : GoString} {family : DtoFamily ℕ}
    (held : store.families other = some family) :
    (store.add metricType name sign metric unused).listed family = store.listed family := by
  unfold listed
  refine List.filterMap_congr fun position positionMem => ?_
  exact getElem?_metrics_add (tidy.bounded held position positionMem)

theorem contents_add (tidy : store.Tidy) {family : DtoFamily ℕ}
    (held : store.families name = some family) (other : GoString) :
    (store.add metricType name sign metric unused).contents other =
      if other = name then
        some { family with metric := store.listed family ++ [metric] }
      else store.contents other := by
  have isFamily : store.family name = family := by
    rw [Store.family, held, Option.getD_some]
  unfold contents
  rw [families_add, isFamily]
  split_ifs with same
  · have longer : (store.add metricType name sign metric unused).listed { family with
        metric := family.metric ++ [store.metrics.length] } = store.listed family ++ [metric] := by
      have before := @listed_add _ metricType name sign metric unused tidy _ _ held
      unfold listed at before ⊢
      dsimp only
      rw [List.filterMap_append, before, List.filterMap_cons_some getElem?_length_add]
      rfl
    rw [Option.map_some, longer]
  · cases lookup : store.families other with
    | none => rfl
    | some found => rw [Option.map_some, Option.map_some, listed_add tidy lookup]

end Store

theorem found_add_of_ne {metricType : MetricType} {sign other : UInt64} (isOther : other ≠ sign)
    (store : Store) (name : GoString) (metric : DtoMetric) (unused : List DtoMetric) :
    (store.add metricType name sign metric unused).found metricType other =
      store.found metricType other := by
  unfold Store.found
  rw [Store.summaries_add, Store.histograms_add, if_neg (not_and_of_not_right _ isOther),
    if_neg (not_and_of_not_right _ isOther)]

theorem found_eq_none {metricType : MetricType} (single : ofLines metricType = false)
    (store : Store) (sign : UInt64) : store.found metricType sign = none := by
  unfold Store.found
  cases metricType <;> first | rfl | cases single

theorem histograms_of_found {metricType : MetricType} (isHistogram : ofHistogram metricType = true)
    (store : Store) (sign : UInt64) :
    store.found metricType sign = store.histograms sign := by
  unfold Store.found
  rw [if_neg (ne_summary_of_ofHistogram isHistogram), if_pos isHistogram]

/-- The signatures of metrics. -/
def signs (name : GoString) (metrics : List Metric) : List UInt64 :=
  metrics.map fun metric => signature name metric.label

variable [Strconv]

/-! ## One sample after the other -/

theorem families_readSample (store : Store) (metricType : MetricType) (sample : Sample) :
    (store.readSample metricType sample).families =
      if (store.found metricType (signature sample.name sample.metric.label)).isSome then
        store.families
      else Function.update store.families sample.name (some { store.family sample.name with
        metric := (store.family sample.name).metric ++ [store.metrics.length] }) := by
  unfold Store.readSample
  dsimp only
  cases store.found metricType (signature sample.name sample.metric.label) with
  | some position => rfl
  | none =>
      rw [if_neg (by decide)]
      unfold Store.modify Store.list Store.setFamily Store.family
      dsimp only
      rw [families_file]

theorem Store.Current.readSample {store : Store} {metricType : MetricType} {sample : Sample}
    (current : store.Current sample.name metricType) :
    (store.readSample metricType sample).Current sample.name metricType := by
  rcases current with ⟨name_ne_nil, valid, ⟨family, held, typed⟩, others⟩
  refine ⟨name_ne_nil, valid, ?_, fun suffix suffixMem => ?_⟩
  · rw [families_readSample]
    split
    · exact ⟨family, held, typed⟩
    · refine ⟨_, Function.update_self _ _ _, ?_⟩
      rw [Store.family, held]
      exact typed
  · have other : sample.name ++ suffix ≠ sample.name := by
      have nonempty : suffix ≠ [] := by
        rintro rfl
        unfold suffixes at suffixMem
        split_ifs at suffixMem <;> revert suffixMem <;> decide
      simpa using nonempty
    rw [families_readSample]
    split
    · exact others suffix suffixMem
    · rw [Function.update_of_ne other]
      exact others suffix suffixMem

namespace TextParser

theorem reaches_samples {metricType : MetricType} {name : GoString} {samples : List Sample}
    (fits : ∀ sample ∈ samples, sample.name = name ∧ sample.Fits metricType)
    {p : TextParser} (current : p.store.Current name metricType)
    (pairs : p.currentLabelPairs = []) (isCurrentMF : p.currentMF = some name) {rest : GoString}
    (isInput : p.input = writeLines (samples.map Line.sample) ++ rest) :
    ∃ q, Machine.Reaches next (.startOfLine, p) (.startOfLine, q) ∧ q.input = rest ∧
      q.currentLabelPairs = [] ∧ q.currentMF = some name ∧
      q.store = samples.foldl (Store.readSample · metricType) p.store := by
  induction samples generalizing p with
  | nil => exact ⟨p, .refl, isInput, pairs, isCurrentMF, rfl⟩
  | cons sample samples inductionHypothesis =>
      rw [List.forall_mem_cons] at fits
      rcases fits with ⟨⟨rfl, fits⟩, others⟩
      rw [List.map_cons, writeLines, List.flatMap_cons, List.append_assoc] at isInput
      rcases reaches_sample fits current pairs isCurrentMF isInput with
        ⟨q, reaches, isRest, pairs, isCurrentMF, isStore⟩
      rcases inductionHypothesis others (isStore ▸ current.readSample) pairs isCurrentMF isRest with
        ⟨last, more, isRest, pairs, isCurrentMF, isLast⟩
      refine ⟨last, reaches.trans more, isRest, pairs, isCurrentMF, ?_⟩
      rw [isLast, isStore]
      rfl

end TextParser

/-! ## The samples of one metric -/

/-- The metric that is read of its samples. -/
def readAll (metricType : MetricType) (labels : List LabelPair) (samples : List Sample) :
    DtoMetric :=
  samples.foldl (fun metric sample => sample.readInto metricType metric) { label := labels }

theorem readSample_new {store : Store} {metricType : MetricType} {sample : Sample}
    (missing : store.found metricType (signature sample.name sample.metric.label) = none) :
    store.readSample metricType sample =
      store.add metricType sample.name (signature sample.name sample.metric.label)
        (sample.readInto metricType { label := sample.metric.label }) [] := by
  unfold Store.readSample
  dsimp only
  rw [missing]
  exact modify_add store metricType sample.name _ { label := sample.metric.label } [] _

theorem readSample_add {store : Store} {metricType : MetricType} {sample : Sample}
    (isOfLines : ofLines metricType = true) (metric : DtoMetric) (unused : List DtoMetric) :
    (store.add metricType sample.name (signature sample.name sample.metric.label) metric
        unused).readSample metricType sample =
      store.add metricType sample.name (signature sample.name sample.metric.label)
        (sample.readInto metricType metric) (unused ++ [{ label := sample.metric.label }]) := by
  have longer : { store.add metricType sample.name (signature sample.name sample.metric.label)
        metric unused with
      metrics := (store.add metricType sample.name (signature sample.name sample.metric.label)
        metric unused).metrics ++ [{ label := sample.metric.label }] } =
      store.add metricType sample.name (signature sample.name sample.metric.label) metric
        (unused ++ [{ label := sample.metric.label }]) := by
    unfold Store.add Store.file
    dsimp only
    rw [← List.cons_append, ← List.append_assoc]
    split_ifs <;> rfl
  unfold Store.readSample
  dsimp only
  rw [found_add isOfLines]
  dsimp only
  rw [longer, modify_add]

/-- The samples of a metric are gathered, the first one as a new metric. -/
theorem foldl_readSample {store : Store} {metricType : MetricType} {name : GoString}
    {labels : List LabelPair} {sample : Sample} {samples : List Sample}
    (missing : store.found metricType (signature name labels) = none)
    (same : ∀ item ∈ sample :: samples, item.name = name ∧ item.metric.label = labels)
    (single : samples = [] ∨ ofLines metricType = true) :
    ∃ unused, (sample :: samples).foldl (Store.readSample · metricType) store =
      store.add metricType name (signature name labels)
        (readAll metricType labels (sample :: samples)) unused := by
  have gathers (metric : DtoMetric) (unused : List DtoMetric) (others : List Sample)
      (isOfLines : others = [] ∨ ofLines metricType = true)
      (same : ∀ item ∈ others, item.name = name ∧ item.metric.label = labels) :
      ∃ more, others.foldl (Store.readSample · metricType)
          (store.add metricType name (signature name labels) metric unused) =
        store.add metricType name (signature name labels)
          (others.foldl (fun metric item => item.readInto metricType metric) metric) more := by
    induction others generalizing metric unused with
    | nil => exact ⟨unused, rfl⟩
    | cons other others inductionHypothesis =>
        rw [List.forall_mem_cons] at same
        rcases same with ⟨⟨rfl, rfl⟩, same⟩
        rcases isOfLines with isEmpty | isOfLines
        · cases isEmpty
        · rw [List.foldl_cons, List.foldl_cons, readSample_add isOfLines]
          exact inductionHypothesis _ _ (Or.inr isOfLines) same
  rw [List.forall_mem_cons] at same
  rcases same with ⟨⟨rfl, rfl⟩, same⟩
  rw [List.foldl_cons, readSample_new missing]
  exact gathers _ _ samples single same

/-- What is read of a metric, before its histogram is normalized. -/
def readOf (metricType : MetricType) (name : GoString) (metric : Metric) : DtoMetric :=
  readAll metricType metric.label (metricSamples name metric)

theorem histogram_readInto {metricType : MetricType} (other : ofHistogram metricType = false)
    (sample : Sample) (metric : DtoMetric) :
    (sample.readInto metricType metric).histogram = metric.histogram := by
  cases metricType with
  | counter | gauge | untyped | summary => rfl
  | histogram | gaugeHistogram => cases other

/-- Only a histogram has the value pointer of one. -/
theorem histogram_readAll {metricType : MetricType} (other : ofHistogram metricType = false)
    (labels : List LabelPair) (samples : List Sample) :
    (readAll metricType labels samples).histogram = none := by
  have kept (metric : DtoMetric) :
      (samples.foldl (fun metric sample => sample.readInto metricType metric) metric).histogram =
        metric.histogram := by
    induction samples generalizing metric with
    | nil => rfl
    | cons sample samples inductionHypothesis =>
        rw [List.foldl_cons, inductionHypothesis, histogram_readInto other]
  exact kept _

/-! ## The metrics of a family -/

/-- The metrics of a family are listed one after the other. -/
theorem read_metrics {metricType : MetricType} {name : GoString} {metrics : List Metric}
    (kinds : ∀ metric ∈ metrics, metric.value.kind = metricType.kind)
    (distinct : ofLines metricType = true → (signs name metrics).Nodup)
    {store : Store} {family : DtoFamily ℕ} (tidy : store.Tidy)
    (held : store.families name = some family)
    (missing : ∀ sign ∈ signs name metrics, store.found metricType sign = none) :
    ∃ read : Store, read = (metrics.flatMap (metricSamples name)).foldl
        (Store.readSample · metricType) store ∧ read.Tidy ∧
      (∀ other, read.contents other = if other = name then
          some { family with
            metric := store.listed family ++ metrics.map (readOf metricType name) }
        else store.contents other) ∧
      (∀ sign, read.summaries sign ≠ none →
        store.summaries sign ≠ none ∨ metricType = .summary ∧ sign ∈ signs name metrics) ∧
      ∀ sign, read.histograms sign ≠ none →
        store.histograms sign ≠ none ∨
          ofHistogram metricType = true ∧ sign ∈ signs name metrics := by
  induction metrics generalizing store family with
  | nil =>
      refine ⟨store, rfl, tidy, fun other => ?_, fun _ => Or.inl, fun _ => Or.inl⟩
      split
      case isTrue same =>
          rw [same, Store.contents, held, List.map_nil, List.append_nil]
          rfl
      case isFalse => rfl
  | cons metric metrics inductionHypothesis =>
      rw [List.forall_mem_cons] at kinds
      rw [signs, List.map_cons] at missing distinct
      rw [List.forall_mem_cons] at missing
      rcases metricSamples_eq_cons name kinds.1 with ⟨sample, samples, isCons, single⟩
      have same : ∀ item ∈ sample :: samples, item.name = name ∧
          item.metric.label = metric.label := by
        intro item itemMem
        rcases eq_of_mem_metricSamples (isCons ▸ itemMem) with ⟨isName, isMetric⟩
        exact ⟨isName, congrArg Metric.label isMetric⟩
      rcases foldl_readSample missing.1 same single with ⟨unused, gathers⟩
      rw [← isCons] at gathers
      replace gathers : _ = store.add metricType name (signature name metric.label)
        (readOf metricType name metric) unused := gathers
      have ofType : (readOf metricType name metric).histogram ≠ none →
          ofHistogram metricType = true := by
        intro isHistogram
        by_contra other
        exact isHistogram (histogram_readAll (by simpa using other) _ _)
      have tidyThen : (store.add metricType name (signature name metric.label)
          (readOf metricType name metric) unused).Tidy :=
        tidy.add ⟨family, held⟩ (fun isHistogram =>
          (histograms_of_found isHistogram store _).symm.trans missing.1) ofType
      have heldThen := @Store.families_add store metricType name (signature name metric.label)
        (readOf metricType name metric) unused name
      rw [if_pos rfl] at heldThen
      have missingThen : ∀ sign ∈ signs name metrics,
          (store.add metricType name (signature name metric.label)
            (readOf metricType name metric) unused).found metricType sign = none := by
        intro sign signMem
        cases isOfLines : ofLines metricType with
        | false => exact found_eq_none isOfLines _ _
        | true =>
            have other : sign ≠ signature name metric.label := by
              rintro rfl
              exact (List.nodup_cons.mp (distinct isOfLines)).1 signMem
            rw [found_add_of_ne other]
            exact missing.2 sign signMem
      rcases inductionHypothesis kinds.2 (fun isOfLines => (List.nodup_cons.mp
        (distinct isOfLines)).2) tidyThen heldThen missingThen with
        ⟨read, isRead, readTidy, contents, summaries, histograms⟩
      refine ⟨read, ?_, readTidy, fun other => ?_, fun sign isHeld => ?_, fun sign isHeld => ?_⟩
      · rw [isRead, List.flatMap_cons, List.foldl_append, gathers]
      · have isFamily : store.family name = family := by
          rw [Store.family, held, Option.getD_some]
        have listed := @Store.contents_add _ metricType name (signature name metric.label)
          (readOf metricType name metric) unused tidy _ held
        have atName := listed name
        rw [if_pos rfl, Store.contents, heldThen, Option.map_some, Option.some_inj] at atName
        rw [contents other, listed other]
        split
        case isTrue =>
            have metrics := congrArg DtoFamily.metric atName
            dsimp only at metrics ⊢
            rw [metrics, isFamily, List.map_cons, List.append_assoc, List.singleton_append]
        case isFalse => rfl
      · rcases summaries sign isHeld with isHeld | ⟨isSummary, signMem⟩
        · rw [Store.summaries_add] at isHeld
          split at isHeld
          case isTrue new => exact Or.inr ⟨new.1, new.2 ▸ List.mem_cons_self⟩
          case isFalse => exact Or.inl isHeld
        · exact Or.inr ⟨isSummary, List.mem_cons_of_mem _ signMem⟩
      · rcases histograms sign isHeld with isHeld | ⟨isHistogram, signMem⟩
        · rw [Store.histograms_add] at isHeld
          split at isHeld
          case isTrue new => exact Or.inr ⟨new.1, new.2 ▸ List.mem_cons_self⟩
          case isFalse => exact Or.inl isHeld
        · exact Or.inr ⟨isHistogram, List.mem_cons_of_mem _ signMem⟩

end Expfmt

end Promfetcher
