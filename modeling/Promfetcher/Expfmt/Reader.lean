import Promfetcher.Expfmt.TextCreate
import Promfetcher.Expfmt.WellFormed

/-!
# What a line says

A line is one operation on the families and metrics that have been read so far.
The text parser, which reads byte after byte, performs exactly this operation on
a line that `MetricFamilyToText` has written: from the start of such a line it
comes to the start of the next one.
-/

namespace Promfetcher

open Foundation

/-! ## The value of a sample -/

namespace Sample

open Expfmt

variable [Strconv]

/-- The number that is read. -/
def number (sample : Sample) : Float64 :=
  rereadFloat (numberValue sample.value)

/-- The quantile or the bound that is read. -/
def limit (sample : Sample) : Float64 :=
  sample.additionalLabel.elim .nan fun label => rereadFloat label.2

/-- What a sample says of a summary. -/
def readSummary (sample : Sample) (summary : DtoSummary) : DtoSummary :=
  if sample.suffix = text "_count" then
    { summary with sampleCount := some (Strconv.uint64 sample.number) }
  else if sample.suffix = text "_sum" then { summary with sampleSum := some sample.number }
  else if !sample.limit.isNaN then
    { summary with quantile := summary.quantile ++ [⟨sample.limit, sample.number⟩] }
  else summary

/-- What a sample says of a histogram. -/
def readHistogram (sample : Sample) (histogram : DtoHistogram) : DtoHistogram :=
  let (count, countFloat) := (TextParser.readCount sample.number).getD (none, none)
  if sample.suffix = text "_count" then
    { histogram with
      sampleCount := count.or histogram.sampleCount
      sampleCountFloat := countFloat.or histogram.sampleCountFloat }
  else if sample.suffix = text "_sum" then { histogram with sampleSum := some sample.number }
  else if !sample.limit.isNaN then
    { histogram with bucket := histogram.bucket ++ [⟨count, countFloat, sample.limit⟩] }
  else histogram

/-- What a sample says of the value of its metric. -/
def readValue (sample : Sample) (metricType : MetricType) (metric : DtoMetric) :
    DtoMetric :=
  match metricType with
  | .counter => { metric with counter := some sample.number }
  | .gauge => { metric with gauge := some sample.number }
  | .untyped => { metric with untyped := some sample.number }
  | .summary => { metric with summary := some (sample.readSummary (metric.summary.getD {})) }
  | .histogram | .gaugeHistogram =>
      { metric with histogram := some (sample.readHistogram (metric.histogram.getD {})) }

/-- A metric once one of its samples has been read. -/
def readInto (sample : Sample) (metricType : MetricType) (metric : DtoMetric) : DtoMetric :=
  let valued := sample.readValue metricType metric
  { valued with timestampMs := sample.metric.timestampMs.or valued.timestampMs }

end Sample

namespace Expfmt

/-! ## The operations -/

/-- The labels by which a metric of several lines is found again. -/
def labelMap (name : GoString) (labels : List LabelPair) : Labels :=
  labels.foldl (fun map label => map.insert (label.name.getD []) (label.value.getD []))
    (AList.singleton metricNameLabel name)

/-- The signature under which a summary or a histogram is filed. -/
def signature (name : GoString) (labels : List LabelPair) : UInt64 :=
  labelsToSignature (labelMap name labels)

/-- Which line of a metric has the suffix. -/
def lineKind (metricType : MetricType) (suffix : GoString) : TextParser.LineKind where
  summaryCount := metricType == .summary && suffix == text "_count"
  summarySum := metricType == .summary && suffix == text "_sum"
  histogramCount := ofHistogram metricType && suffix == text "_count"
  histogramSum := ofHistogram metricType && suffix == text "_sum"

/-- A gauge histogram is written as a histogram. -/
def rereadType : MetricType → MetricType
  | .gaugeHistogram => .histogram
  | metricType => metricType

namespace Store

/-- The family with the name, or a new one. -/
def family (store : Store) (name : GoString) : DtoFamily ℕ :=
  (store.families name).getD {}

/-- The text of a help line starts with the first byte that is neither a blank nor a tab. -/
def readHelp (store : Store) (name help : GoString) : Store :=
  let trimmed := help.dropWhile isBlankOrTab
  store.setFamily name { store.family name with
    help := if trimmed = [] then (store.family name).help else some trimmed }

/-- The type that is read. -/
def readType (store : Store) (name : GoString) (metricType : MetricType) : Store :=
  store.setFamily name { store.family name with type := some (rereadType metricType) }

end Store

section

variable [Strconv]

namespace Store

/-- The metric that is found by the labels of a sample. -/
def found (store : Store) (metricType : MetricType) (signature : UInt64) : Option ℕ :=
  if metricType = .summary then store.summaries signature
  else if ofHistogram metricType then store.histograms signature
  else none

/-- The store once a metric is filed, if metrics of the type are. -/
def file (store : Store) (metricType : MetricType) (signature : UInt64) (position : ℕ) : Store :=
  if metricType = .summary then store.fileSummary signature position
  else if ofHistogram metricType then store.fileHistogram signature position
  else store

/-- The store once a metric is listed as the last one of its family. -/
def list (store : Store) (name : GoString) (position : ℕ) : Store :=
  store.setFamily name
    { store.family name with metric := (store.family name).metric ++ [position] }

/-- A sample is one of the metric with its labels, or that of a new metric. -/
def readSample (store : Store) (metricType : MetricType) (sample : Sample) : Store :=
  let sign := signature sample.name sample.metric.label
  let started : Store :=
    { store with metrics := store.metrics ++ [{ label := sample.metric.label }] }
  match store.found metricType sign with
  | some position => started.modify position (sample.readInto metricType)
  | none =>
      let filed := started.file metricType sign store.metrics.length
      (filed.list sample.name store.metrics.length).modify store.metrics.length
        (sample.readInto metricType)

end Store

end

/-! ## The names of lines -/

/-- The suffixes of the lines of a metric. -/
def suffixes (metricType : MetricType) : List GoString :=
  if metricType = .summary then [text "_sum", text "_count"]
  else if ofHistogram metricType then [text "_bucket", text "_sum", text "_count"]
  else []

/-- The store holds the family under its name, and none under the names of its lines. -/
structure Store.Current (store : Store) (name : GoString) (metricType : MetricType) : Prop where
  name_ne_nil : name ≠ []
  valid : validString name = true
  held : ∃ family, store.families name = some family ∧ family.type = some metricType
  others : ∀ suffix ∈ suffixes metricType, store.families (name ++ suffix) = none

theorem length_lt_append {name : GoString} (name_ne_nil : name ≠ []) (suffix : GoString) :
    suffix.length < (name ++ suffix).length := by
  have positive := List.length_pos_of_ne_nil name_ne_nil
  rw [List.length_append]
  omega

theorem isCount_append {name : GoString} (name_ne_nil : name ≠ []) :
    isCount (name ++ text "_count") = true := by
  rw [isCount, Bool.and_eq_true, decide_eq_true_iff]
  exact ⟨length_lt_append name_ne_nil (text "_count"), by simp⟩

theorem isSum_append {name : GoString} (name_ne_nil : name ≠ []) :
    isSum (name ++ text "_sum") = true := by
  rw [isSum, Bool.and_eq_true, decide_eq_true_iff]
  exact ⟨length_lt_append name_ne_nil (text "_sum"), by simp⟩

theorem isBucket_append {name : GoString} (name_ne_nil : name ≠ []) :
    isBucket (name ++ text "_bucket") = true := by
  rw [isBucket, Bool.and_eq_true, decide_eq_true_iff]
  exact ⟨length_lt_append name_ne_nil (text "_bucket"), by simp⟩

theorem isCount_append_sum (name : GoString) : isCount (name ++ text "_sum") = false := by
  rw [isCount, isSuffixOf_append_eq_false (by decide), Bool.and_false]

theorem isCount_append_bucket (name : GoString) : isCount (name ++ text "_bucket") = false := by
  rw [isCount, isSuffixOf_append_eq_false (by decide), Bool.and_false]

theorem isSum_append_count (name : GoString) : isSum (name ++ text "_count") = false := by
  rw [isSum, isSuffixOf_append_eq_false (by decide), Bool.and_false]

theorem isSum_append_bucket (name : GoString) : isSum (name ++ text "_bucket") = false := by
  rw [isSum, isSuffixOf_append_eq_false (by decide), Bool.and_false]

theorem take_append_literal (name suffix : GoString) {length : ℕ}
    (isLength : suffix.length = length) :
    (name ++ suffix).take ((name ++ suffix).length - length) = name := by
  rw [List.length_append, isLength, Nat.add_sub_cancel, List.take_left]

theorem summaryMetricName_count {name : GoString} (name_ne_nil : name ≠ []) :
    summaryMetricName (name ++ text "_count") = name := by
  rw [summaryMetricName, if_pos (isCount_append name_ne_nil)]
  exact take_append_literal name (text "_count") rfl

theorem summaryMetricName_sum {name : GoString} (name_ne_nil : name ≠ []) :
    summaryMetricName (name ++ text "_sum") = name := by
  rw [summaryMetricName, if_neg (by simp [isCount_append_sum]),
    if_pos (isSum_append name_ne_nil)]
  exact take_append_literal name (text "_sum") rfl

theorem summaryMetricName_bucket (name : GoString) :
    summaryMetricName (name ++ text "_bucket") = name ++ text "_bucket" := by
  rw [summaryMetricName, if_neg (by simp [isCount_append_bucket]),
    if_neg (by simp [isSum_append_bucket])]

theorem histogramMetricName_count {name : GoString} (name_ne_nil : name ≠ []) :
    histogramMetricName (name ++ text "_count") = name := by
  rw [histogramMetricName, if_pos (isCount_append name_ne_nil)]
  exact take_append_literal name (text "_count") rfl

theorem histogramMetricName_sum {name : GoString} (name_ne_nil : name ≠ []) :
    histogramMetricName (name ++ text "_sum") = name := by
  rw [histogramMetricName, if_neg (by simp [isCount_append_sum]),
    if_pos (isSum_append name_ne_nil)]
  exact take_append_literal name (text "_sum") rfl

theorem histogramMetricName_bucket {name : GoString} (name_ne_nil : name ≠ []) :
    histogramMetricName (name ++ text "_bucket") = name := by
  rw [histogramMetricName, if_neg (by simp [isCount_append_bucket]),
    if_neg (by simp [isSum_append_bucket]),
    if_pos (isBucket_append name_ne_nil)]
  exact take_append_literal name (text "_bucket") rfl

namespace TextParser

variable {p : TextParser}

/-- A line is one of the family that it was written for. -/
theorem findMF_append {name suffix : GoString} {metricType : MetricType}
    (current : p.store.Current name metricType)
    (isSuffix : suffix = [] ∨ suffix ∈ suffixes metricType) :
    p.findMF (name ++ suffix) = some (name, lineKind metricType suffix) := by
  rcases current.held with ⟨family, held, typed⟩
  replace held : p.metricFamiliesByName.lookup name = some family := held
  rcases isSuffix with rfl | isSuffix
  · have noKind : lineKind metricType [] = {} := by cases metricType <;> rfl
    rw [findMF, List.append_nil, held, noKind]
    rfl
  have missing : p.metricFamiliesByName.lookup (name ++ suffix) = none :=
    current.others suffix isSuffix
  unfold findMF
  rw [missing]
  dsimp only
  rw [if_neg (by decide)]
  have name_ne_nil := current.name_ne_nil
  have lookup {other : GoString} (same : other = name) :
      p.metricFamiliesByName.lookup other = some family := same ▸ held
  unfold suffixes at isSuffix
  split_ifs at isSuffix with isSummary isHistogram
  · subst isSummary
    simp only [List.mem_cons, List.not_mem_nil, or_false] at isSuffix
    rcases isSuffix with rfl | rfl
    · have isName := summaryMetricName_sum name_ne_nil
      simp [lookup isName, isName, typed, isCount_append_sum, isSum_append name_ne_nil]
      rfl
    · have isName := summaryMetricName_count name_ne_nil
      simp [lookup isName, isName, typed, isCount_append name_ne_nil, isSum_append_count]
      rfl
  · have notSummary : (metricType == .summary) = false := by simpa using isSummary
    simp only [List.mem_cons, List.not_mem_nil, or_false] at isSuffix
    rcases isSuffix with rfl | rfl | rfl
    · have isName := histogramMetricName_bucket name_ne_nil
      have missing : p.metricFamiliesByName.lookup (summaryMetricName (name ++ text "_bucket")) =
          none := (summaryMetricName_bucket name).symm ▸ missing
      simp [missing, lookup isName, isName, typed, isHistogram, isCount_append_bucket,
        isSum_append_bucket, lineKind, notSummary]
      decide
    · have isName := histogramMetricName_sum name_ne_nil
      simp [lookup (summaryMetricName_sum name_ne_nil), lookup isName, isName, typed, isSummary,
        isHistogram, isCount_append_sum, isSum_append name_ne_nil, lineKind, notSummary]
      decide
    · have isName := histogramMetricName_count name_ne_nil
      simp [lookup (summaryMetricName_count name_ne_nil), lookup isName, isName, typed, isSummary,
        isHistogram, isCount_append name_ne_nil, isSum_append_count, lineKind, notSummary]
      decide
  · cases isSuffix

theorem findMF_of_held {p : TextParser} {name : GoString} (held : p.store.families name ≠ none) :
    p.findMF name = some (name, {}) := by
  have isHeld : (p.metricFamiliesByName.lookup name).isSome = true :=
    Option.isSome_iff_ne_none.mpr held
  unfold findMF
  dsimp only
  rw [if_pos isHeld]

/-! ## The states on what has been written -/

theorem ensure_eq_ok {condition : Bool} {msg : ParseMsg} (holds : condition = true) :
    ensure condition msg = .ok () :=
  if_pos holds

/-- A name starts with a byte that has no other meaning. -/
theorem writeName_eq_cons (name : GoString) :
    ∃ first tail, writeName name = first :: tail ∧ isBlankOrTab first = false ∧
      first ≠ newline ∧ first ≠ hashSign ∧ first ≠ openBrace ∧ first ≠ closeBrace := by
  unfold writeName
  split
  case isTrue legacy =>
      cases name with
      | nil => cases legacy
      | cons first tail =>
          simp only [isLegacyName, Bool.and_eq_true] at legacy
          rcases isLegacyByte_iff legacy.1.1 with
            ⟨_, _, notNewline, _, _, notBlank, _, notOpen, notHash⟩
          refine ⟨first, tail, rfl, notBlank, notNewline, notHash, notOpen, ?_⟩
          rintro rfl
          exact absurd legacy.1.1 (by decide)
  case isFalse => exact ⟨quote, escapedString true name ++ [quote], rfl, by decide⟩

theorem startOfLine_cons {byte : UInt8} {rest : GoString} (isInput : p.input = byte :: rest)
    (notBlank : isBlankOrTab byte = false) :
    p.startOfLine = .ok (some (if byte = hashSign then .startComment
      else if byte = newline then .startOfLine
      else if byte = openBrace then .readingLabels
      else .readingMetricName), (p.newLine (byte == openBrace)).readTo byte rest) := by
  unfold startOfLine
  rw [isInput, skipBlankTab_cons notBlank]
  simp only [beq_iff_eq]
  split_ifs <;> rfl

theorem readingMetricName_writeName {name input : GoString} {byte current : UInt8}
    {rest : GoString} {started : TextParser} (name_ne_nil : name ≠ [])
    (isInput : p.currentByte :: p.input = writeName name ++ byte :: rest)
    (ends : byte = openBrace ∨ byte = 0x20) (starts : p.startMetric name = .ok started)
    (skips : skipBlankTabIfCurrentBlankTab byte rest = .ok (current, input)) :
    p.readingMetricName = .ok (some .readingLabels, started.readTo current input) := by
  have reads : readTokenAsMetricName (writeName name ++ byte :: rest) = .ok (name, byte, rest) := by
    refine readTokenAsMetricName_writeName (fun _ => ?_) rest
    rcases ends with rfl | rfl
    · exact Or.inl (by decide)
    · exact Or.inr rfl
  unfold readingMetricName
  rw [isInput, reads]
  simp [bind, Except.bind, ensure, name_ne_nil, starts, skips, pure, Except.pure]

theorem startLabelName_writeName {name rest : GoString}
    (isInput : p.input = writeName name ++ equalsSign :: rest) (name_ne_nil : name ≠ [])
    (readable : isLegacyName name = true → colon ∉ name) (notReserved : name ≠ metricNameLabel)
    (valid : validString name = true)
    (notDuplicate : ofMetric p.getType name = true →
      ∀ label ∈ p.currentLabelPairs, label.name ≠ some name) :
    p.startLabelName =
      .ok (some .startLabelValue, { p.readTo equalsSign rest with currentLabelName := name }) := by
  rcases writeName_eq_cons name with ⟨first, tail, written, notBlank, _, _, _, notClose⟩
  have reads := readTokenAsLabelName_writeName readable rest
  rw [written, List.cons_append] at isInput reads
  have unique : (!(ofMetric p.getType name &&
      p.currentLabelPairs.any fun label => label.name == some name)) = true := by
    rw [Bool.not_eq_true', Bool.and_eq_false_iff, or_iff_not_imp_left, Bool.not_eq_false]
    intro isOfMetric
    rw [List.any_eq_false]
    simpa using notDuplicate isOfMetric
  unfold startLabelName
  rw [isInput, skipBlankTab_cons notBlank]
  dsimp only [bind, Except.bind]
  rw [if_neg (by simpa using notClose), reads]
  dsimp only
  rw [ensure_eq_ok (by simpa using name_ne_nil),
    show skipBlankTabIfCurrentBlankTab equalsSign rest = .ok (equalsSign, rest) from rfl]
  dsimp only
  rw [if_neg (by decide), ensure_eq_ok (by simpa using notReserved), ensure_eq_ok valid]
  dsimp only
  rw [show (p.readTo equalsSign rest).getType = p.getType from rfl,
    show (p.readTo equalsSign rest).currentLabelPairs = p.currentLabelPairs from rfl,
    ensure_eq_ok unique]
  rfl

theorem closeLabels_cons {position : ℕ} {byte : UInt8} {rest : GoString}
    (isCurrent : p.currentMetric = some position) (isInput : p.input = 0x20 :: byte :: rest)
    (notBlank : isBlankOrTab byte = false) :
    p.closeLabels = .ok (some .readingValue, (p.attachLabels position).readTo byte rest) := by
  have skips : skipBlankTab (0x20 :: byte :: rest) = .ok (byte, rest) := by
    rw [skipBlankTab, if_pos (by decide), skipBlankTab_cons notBlank]
  simp [closeLabels, updateMetric, isCurrent, isInput, skips, bind, Except.bind, pure, Except.pure,
    attachLabels]

theorem startLabelValue_comma [Strconv] {value rest : GoString} {labelled : TextParser}
    (isInput : p.input = quote :: (escapedString true value ++ quote :: comma :: rest))
    (valid : validString value = true) (sets : p.setLabel value = .ok labelled) :
    p.startLabelValue = .ok (some .startLabelName, labelled.readTo comma rest) := by
  unfold startLabelValue
  rw [isInput, skipBlankTab_cons (by decide)]
  dsimp only [bind, Except.bind]
  rw [ensure_eq_ok (by decide), readTokenAsLabelValue_escapedString]
  dsimp only
  rw [ensure_eq_ok valid, sets]
  dsimp only
  rw [skipBlankTab_cons (by decide)]
  rfl

theorem startLabelValue_closeBrace [Strconv] {value rest : GoString} {labelled : TextParser}
    (isInput : p.input = quote :: (escapedString true value ++ quote :: closeBrace :: rest))
    (valid : validString value = true) (sets : p.setLabel value = .ok labelled)
    (isCurrentMF : labelled.currentMF.isSome) :
    p.startLabelValue = (labelled.readTo closeBrace rest).closeLabels := by
  unfold startLabelValue
  rw [isInput, skipBlankTab_cons (by decide)]
  dsimp only [bind, Except.bind]
  rw [ensure_eq_ok (by decide), readTokenAsLabelValue_escapedString]
  dsimp only
  rw [ensure_eq_ok valid, sets]
  dsimp only
  rw [skipBlankTab_cons (by decide)]
  dsimp only
  rw [if_neg (by decide), if_pos (by decide),
    show (labelled.readTo closeBrace rest).currentMF = labelled.currentMF from rfl,
    ensure_eq_ok isCurrentMF]

theorem readingValue_writeFloat [Strconv] {number : Float64} {byte : UInt8} {rest : GoString}
    {placed valued : TextParser}
    (isInput : p.currentByte :: p.input = writeFloat number ++ byte :: rest)
    (ends : byte = newline ∨ byte = 0x20) (places : p.placeMetric = .ok placed)
    (unread : placed.currentByte :: placed.input = p.currentByte :: p.input)
    (sets : (placed.readTo byte rest).setValue (rereadFloat number) = .ok valued) :
    p.readingValue =
      .ok (some (if byte = newline then .startOfLine else .startTimestamp), valued) := by
  have plain : ∀ part ∈ writeFloat number, part ≠ newline ∧ isBlankOrTab part = false := by
    intro part partMem
    rcases numberByte (contains_writeFloat number part partMem) with ⟨notNewline, notBlank, _⟩
    exact ⟨notNewline, notBlank⟩
  unfold readingValue
  rw [places]
  dsimp only [bind, Except.bind]
  rw [unread, isInput, readTokenUntilWhitespace_append plain ends]
  dsimp only
  rw [parseFloat_writeFloat]
  dsimp only
  rw [sets]
  rcases ends with rfl | rfl <;> rfl

theorem startTimestamp_formatInt {timestamp : Int} {rest : GoString} {position : ℕ}
    (isInput : p.input = formatInt timestamp ++ newline :: rest) (low : -2 ^ 63 ≤ timestamp)
    (high : timestamp < 2 ^ 63) (isCurrent : p.currentMetric = some position) :
    p.startTimestamp = .ok (some .startOfLine, TextParser.readTo
      { p with metrics := p.metrics.modify position fun metric =>
        { metric with timestampMs := some timestamp } } newline rest) := by
  have plain : ∀ part ∈ formatInt timestamp, part ≠ newline ∧ isBlankOrTab part = false := by
    intro part partMem
    rcases mem_formatInt partMem with rfl | isDigit
    · decide
    · have legacy : isLegacyByte part = true := by simp [isLegacyByte, isDigit]
      rcases isLegacyByte_iff legacy with ⟨_, _, notNewline, _, _, notBlank, _⟩
      exact ⟨notNewline, notBlank⟩
  have reads := readTokenUntilWhitespace_append plain (Or.inl rfl) rest
  cases digits : formatInt timestamp with
  | nil =>
      have isNumber := parseInt_formatInt low high
      rw [digits] at isNumber
      cases isNumber
  | cons first digitsRest =>
      rw [digits, List.cons_append] at isInput reads
      have notBlank := (plain first (digits ▸ List.mem_cons_self)).2
      unfold startTimestamp
      rw [isInput, skipBlankTab_cons notBlank]
      dsimp only [bind, Except.bind]
      rw [reads]
      dsimp only
      rw [← digits, parseInt_formatInt low high]
      simp [updateMetric, isCurrent, readTokenUntilNewline, ensure, pure, Except.pure, readTo]

end TextParser

/-! ## Labels -/

/-- What has been read of a line. -/
structure LineState where
  store : Store
  name : GoString
  metricType : MetricType
  kind : TextParser.LineKind
  position : ℕ
  collected : List LabelPair
  limit : Float64

/-- The parser has read this of a line. -/
structure TextParser.Within (p : TextParser) (line : LineState) : Prop where
  store : p.store = line.store
  held : ∃ family, line.store.families line.name = some family ∧
    family.type = some line.metricType
  currentMF : p.currentMF = some line.name
  currentMetric : p.currentMetric = some line.position
  summaryCount : p.currentIsSummaryCount = line.kind.summaryCount
  summarySum : p.currentIsSummarySum = line.kind.summarySum
  histogramCount : p.currentIsHistogramCount = line.kind.histogramCount
  histogramSum : p.currentIsHistogramSum = line.kind.histogramSum
  labels : ofLines line.metricType = true →
    p.currentLabels = some (labelMap line.name line.collected)
  quantile : line.metricType = .summary → p.currentQuantile = line.limit
  bucket : ofHistogram line.metricType = true → p.currentBucket = line.limit

namespace LineState

variable [Strconv]

/-- A label is one of the metric, or its value is that of the line. -/
def label (line : LineState) (item : GoString × GoString) : LineState :=
  if ofMetric line.metricType item.1 then
    { line with collected := line.collected ++ [⟨some item.1, some item.2⟩] }
  else { line with limit := (parseFloat item.2).getD .nan }

/-- The label is read back after what has been read of the line. -/
structure Readable (line : LineState) (item : GoString × GoString) : Prop where
  name_ne_nil : item.1 ≠ []
  readable : isLegacyName item.1 = true → colon ∉ item.1
  notReserved : item.1 ≠ metricNameLabel
  validName : validString item.1 = true
  validValue : validString item.2 = true
  notDuplicate : ofMetric line.metricType item.1 = true →
    ∀ label ∈ line.collected, label.name ≠ some item.1
  number : ofMetric line.metricType item.1 = false → (parseFloat item.2).isSome

/-- Every label can be read where it stands, behind those in front of it. -/
def AllReadable (line : LineState) : List (GoString × GoString) → Prop
  | [] => True
  | item :: items => line.Readable item ∧ (line.label item).AllReadable items

/-- The labels are those of the metric. -/
def attach (line : LineState) : LineState :=
  { line with
    store := line.store.modify line.position fun metric =>
      { metric with label := metric.label ++ line.collected } }

end LineState

section

variable {p : TextParser}

theorem ofLines_of_ofMetric {metricType : MetricType} {labelName : GoString}
    (ofLine : ofMetric metricType labelName = false) : ofLines metricType = true := by
  cases metricType <;> simp [ofMetric, ofHistogram, ofLines] at ofLine ⊢

theorem setLabel_single [Strconv] {value : GoString}
    (isOfMetric : ofMetric p.getType p.currentLabelName = true)
    (notOfLines : ofLines p.getType = false) :
    p.setLabel value = .ok { p with
      currentLabelPairs := p.currentLabelPairs ++ [⟨some p.currentLabelName, some value⟩] } := by
  unfold TextParser.setLabel
  dsimp only
  rw [if_pos isOfMetric, if_pos]
  rw [Bool.not_eq_true']
  exact notOfLines

theorem setLabel_metric [Strconv] {value : GoString} {labels : Labels}
    (isOfMetric : ofMetric p.getType p.currentLabelName = true)
    (isOfLines : ofLines p.getType = true) (isLabels : p.currentLabels = some labels) :
    p.setLabel value = .ok { p with
      currentLabelPairs := p.currentLabelPairs ++ [⟨some p.currentLabelName, some value⟩]
      currentLabels := some (labels.insert p.currentLabelName value) } := by
  unfold TextParser.setLabel
  dsimp only
  rw [if_pos isOfMetric, if_neg, if_pos]
  · simp only [isLabels]
  · exact isOfMetric
  · rw [Bool.not_eq_true', Bool.not_eq_false]
    exact isOfLines

theorem setLabel_line [Strconv] {value : GoString} {number : Float64}
    (isOfLine : ofMetric p.getType p.currentLabelName = false)
    (parsed : parseFloat value = some number) :
    p.setLabel value = .ok { p with
      currentQuantile := if p.getType = .summary then number else p.currentQuantile
      currentBucket := if p.getType = .summary then p.currentBucket else number } := by
  have isOfLines := ofLines_of_ofMetric isOfLine
  unfold TextParser.setLabel
  dsimp only
  rw [isOfLine, if_neg Bool.false_ne_true, if_neg (by simpa using isOfLines), isOfLine,
    if_neg Bool.false_ne_true, parsed]
  dsimp only
  split_ifs <;> rfl

end

namespace TextParser.Within

variable {p : TextParser} {line : LineState}

theorem getType (within : p.Within line) : p.getType = line.metricType := by
  rcases within.held with ⟨family, held, typed⟩
  have lookup : p.metricFamiliesByName.lookup line.name = some family := by
    rw [← within.store] at held
    exact held
  unfold TextParser.getType TextParser.family
  rw [within.currentMF, Option.bind_some, lookup, Option.bind_some, typed]
  rfl

theorem readTo (within : p.Within line) (current : UInt8) (input : GoString) :
    (p.readTo current input).Within line :=
  ⟨within.store, within.held, within.currentMF, within.currentMetric, within.summaryCount,
    within.summarySum, within.histogramCount, within.histogramSum, within.labels,
    within.quantile, within.bucket⟩

theorem setLabel [Strconv] {item : GoString × GoString} (within : p.Within line)
    (pairs : p.currentLabelPairs = line.collected) (isName : p.currentLabelName = item.1)
    (readable : line.Readable item) :
    ∃ labelled, p.setLabel item.2 = .ok labelled ∧ labelled.Within (line.label item) ∧
      labelled.currentLabelPairs = (line.label item).collected := by
  rcases item with ⟨_, value⟩
  replace isName : p.currentLabelName = _ := isName
  subst isName
  have typed := within.getType
  unfold LineState.label
  cases isOfMetric : ofMetric line.metricType p.currentLabelName with
  | true =>
      cases isOfLines : ofLines line.metricType with
      | false =>
          refine ⟨_, setLabel_single (typed ▸ isOfMetric) (typed ▸ isOfLines), ?_, ?_⟩
          · refine ⟨within.store, within.held, within.currentMF, within.currentMetric,
              within.summaryCount, within.summarySum, within.histogramCount, within.histogramSum,
              ?_, within.quantile, within.bucket⟩
            exact fun ofLines => absurd (isOfLines.symm.trans ofLines) (by decide)
          · rw [← pairs]
            rfl
      | true =>
          refine ⟨_, setLabel_metric (typed ▸ isOfMetric) (typed ▸ isOfLines)
            (within.labels isOfLines), ?_, ?_⟩
          · refine ⟨within.store, within.held, within.currentMF, within.currentMetric,
              within.summaryCount, within.summarySum, within.histogramCount, within.histogramSum,
              fun _ => ?_, within.quantile, within.bucket⟩
            simp [labelMap]
          · rw [← pairs]
            rfl
  | false =>
      rcases Option.isSome_iff_exists.mp (readable.number isOfMetric) with ⟨number, parsed⟩
      refine ⟨_, setLabel_line (typed ▸ isOfMetric) parsed, ?_, pairs⟩
      refine ⟨within.store, within.held, within.currentMF, within.currentMetric,
        within.summaryCount, within.summarySum, within.histogramCount, within.histogramSum,
        within.labels, ?_, ?_⟩
      · intro isSummary
        replace isSummary : line.metricType = .summary := isSummary
        simp [typed, isSummary, parsed]
      · intro isHistogram
        have notSummary : line.metricType ≠ .summary := by
          intro isSummary
          rw [isSummary] at isHistogram
          cases isHistogram
        simp [typed, notSummary, parsed]

theorem closeLabels {byte : UInt8} {rest : GoString} (within : p.Within line)
    (pairs : p.currentLabelPairs = line.collected)
    (isInput : p.input = 0x20 :: byte :: rest) (notBlank : isBlankOrTab byte = false) :
    ∃ q, p.closeLabels = .ok (some .readingValue, q) ∧ q.Within line.attach ∧
      q.currentLabelPairs = [] ∧ q.currentByte = byte ∧ q.input = rest := by
  refine ⟨_, closeLabels_cons within.currentMetric isInput notBlank, ?_, rfl, rfl, rfl⟩
  refine ⟨?_, within.held, within.currentMF, within.currentMetric, within.summaryCount,
    within.summarySum, within.histogramCount, within.histogramSum, within.labels,
    within.quantile, within.bucket⟩
  unfold LineState.attach
  rw [← within.store, ← pairs]
  rfl

end TextParser.Within

/-! ## From one state to another -/

/-- The labels of a sample, with commas between them. -/
def writeItems (items : List (GoString × GoString)) : GoString :=
  [comma].intercalate (items.map fun item => writeLabel item.1 item.2)

theorem writeItems_cons_cons (item second : GoString × GoString)
    (items : List (GoString × GoString)) :
    writeItems (item :: second :: items) =
      writeLabel item.1 item.2 ++ comma :: writeItems (second :: items) := by
  simp [writeItems, List.intercalate]

namespace TextParser

variable [Strconv] {p : TextParser}

theorem reaches_of_step (state : StateFn) {after : StateFn} {q : TextParser}
    (steps : p.step state = .ok (some after, q)) :
    Machine.Reaches next (state, p) (after, q) := by
  refine Relation.ReflTransGen.single ?_
  rw [Machine.Moves, next, steps]

/-- From the name of a label to its value. -/
theorem reaches_labelName {line : LineState} {item : GoString × GoString} {rest : GoString}
    (within : p.Within line) (pairs : p.currentLabelPairs = line.collected)
    (readable : line.Readable item)
    (isInput : p.input = writeLabel item.1 item.2 ++ rest) :
    ∃ q, Machine.Reaches next (.startLabelName, p) (.startLabelValue, q) ∧ q.Within line ∧
      q.currentLabelPairs = line.collected ∧ q.currentLabelName = item.1 ∧
      q.input = quote :: (escapedString true item.2 ++ quote :: rest) := by
  have startsValue : p.input = writeName item.1 ++
      equalsSign :: (quote :: (escapedString true item.2 ++ quote :: rest)) := by
    rw [isInput]
    simp [writeLabel, show text "=" = [equalsSign] from rfl]
  refine ⟨_, reaches_of_step .startLabelName
    (startLabelName_writeName startsValue readable.name_ne_nil
    readable.readable readable.notReserved readable.validName ?_), ?_, pairs, rfl, rfl⟩
  · rw [within.getType, pairs]
    exact readable.notDuplicate
  · exact ⟨within.store, within.held, within.currentMF, within.currentMetric,
      within.summaryCount, within.summarySum, within.histogramCount, within.histogramSum,
      within.labels, within.quantile, within.bucket⟩

/-- The labels between the braces are read one after the other. -/
theorem reaches_items {line : LineState} {items : List (GoString × GoString)} {byte : UInt8}
    {rest : GoString} (items_ne_nil : items ≠ []) (within : p.Within line)
    (pairs : p.currentLabelPairs = line.collected) (readable : line.AllReadable items)
    (notBlank : isBlankOrTab byte = false)
    (isInput : p.input = writeItems items ++ closeBrace :: 0x20 :: byte :: rest) :
    ∃ q, Machine.Reaches next (.startLabelName, p) (.readingValue, q) ∧
      q.Within (items.foldl LineState.label line).attach ∧ q.currentLabelPairs = [] ∧
      q.currentByte = byte ∧ q.input = rest := by
  induction items generalizing p line with
  | nil => exact absurd rfl items_ne_nil
  | cons item items inductionHypothesis =>
      rcases readable with ⟨isReadable, readable⟩
      cases items with
      | nil =>
          have isLast : p.input = writeLabel item.1 item.2 ++ closeBrace :: 0x20 :: byte :: rest :=
            isInput.trans (by simp [writeItems, List.intercalate])
          rcases reaches_labelName within pairs isReadable isLast with
            ⟨q, reaches, within, pairs, isName, isInput⟩
          rcases within.setLabel pairs isName isReadable with
            ⟨labelled, sets, labelledWithin, labelledPairs⟩
          have closes := startLabelValue_closeBrace isInput isReadable.validValue sets
            (Option.isSome_of_eq_some labelledWithin.currentMF)
          rcases (labelledWithin.readTo closeBrace _).closeLabels labelledPairs rfl notBlank
            with ⟨last, closed, lastWithin, lastPairs, isByte, isRest⟩
          exact ⟨last, reaches.trans (reaches_of_step .startLabelValue (closes.trans closed)),
            lastWithin, lastPairs, isByte, isRest⟩
      | cons second items =>
          rw [writeItems_cons_cons, List.append_assoc, List.cons_append] at isInput
          rcases reaches_labelName within pairs isReadable isInput with
            ⟨q, reaches, within, pairs, isName, isInput⟩
          rcases within.setLabel pairs isName isReadable with
            ⟨labelled, sets, labelledWithin, labelledPairs⟩
          rcases inductionHypothesis (List.cons_ne_nil _ _) (labelledWithin.readTo comma _)
            labelledPairs readable rfl with ⟨last, more, rest⟩
          have continues := startLabelValue_comma isInput isReadable.validValue sets
          replace more := (reaches_of_step .startLabelValue continues).trans more
          exact ⟨last, reaches.trans more, rest⟩

end TextParser

end Expfmt

end Promfetcher
