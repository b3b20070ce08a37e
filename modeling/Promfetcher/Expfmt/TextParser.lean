import Promfetcher.Expfmt.Tokens
import Promfetcher.Foundation.Machine

/-!
# The text parser

`TextParser` of the vendored package `expfmt`, which reads what a target exposes.
The parser is a machine that reads byte after byte. Its metrics are kept by their
positions, since families, summaries and histograms share them by pointer; a
family is known by its name, under which its map holds it. A nil pointer or a nil
map that is written to ends in a panic.
-/

namespace Promfetcher

open Foundation

namespace Expfmt

/-! ## Families -/

/-- `dto.Summary`, with its optional fields. -/
structure DtoSummary where
  sampleCount : Option UInt64 := none
  sampleSum : Option Float64 := none
  quantile : List Quantile := []
  deriving DecidableEq, Repr

/-- `dto.Bucket`: a count, as an integer or as a floating point number, up to a bound. -/
structure DtoBucket where
  cumulativeCount : Option UInt64 := none
  cumulativeCountFloat : Option Float64 := none
  upperBound : Float64
  deriving DecidableEq, Repr

/-- `dto.Histogram`, with its optional fields. -/
structure DtoHistogram where
  sampleCount : Option UInt64 := none
  sampleCountFloat : Option Float64 := none
  sampleSum : Option Float64 := none
  bucket : List DtoBucket := []
  deriving DecidableEq, Repr

/-- `dto.Metric`: a metric has one of the value pointers set when it is complete. -/
structure DtoMetric where
  label : List LabelPair := []
  counter : Option Float64 := none
  gauge : Option Float64 := none
  untyped : Option Float64 := none
  summary : Option DtoSummary := none
  histogram : Option DtoHistogram := none
  timestampMs : Option ℤ := none
  deriving DecidableEq, Repr

/-- A family, with its metrics or with their positions. -/
structure DtoFamily (M : Type) where
  help : Option GoString := none
  type : Option MetricType := none
  metric : List M := []
  deriving DecidableEq, Repr

/-- A line with this name may give the count of a summary or of a histogram. -/
def isCount (name : GoString) : Bool :=
  6 < name.length && (text "_count").isSuffixOf name

/-- A line with this name may give the sum of a summary or of a histogram. -/
def isSum (name : GoString) : Bool :=
  4 < name.length && (text "_sum").isSuffixOf name

/-- A line with this name may give a bucket of a histogram. -/
def isBucket (name : GoString) : Bool :=
  7 < name.length && (text "_bucket").isSuffixOf name

/-- The name of the summary that a line with the name would belong to. -/
def summaryMetricName (name : GoString) : GoString :=
  if isCount name then name.take (name.length - 6)
  else if isSum name then name.take (name.length - 4)
  else name

/-- The name of the histogram that a line with the name would belong to. -/
def histogramMetricName (name : GoString) : GoString :=
  if isCount name then name.take (name.length - 6)
  else if isSum name then name.take (name.length - 4)
  else if isBucket name then name.take (name.length - 7)
  else name

/-- The types of which the metrics are histograms. -/
def ofHistogram (metricType : MetricType) : Bool :=
  metricType == .histogram || metricType == .gaugeHistogram

/-- The types of which a metric has several lines. -/
def ofLines (metricType : MetricType) : Bool :=
  metricType == .summary || ofHistogram metricType

/-- `model.MetricNameLabel`, which stands for the name among the labels of a signature. -/
def metricNameLabel : GoString := text "__name__"

/-- `model.QuantileLabel`, which gives the quantile of a line of a summary. -/
def quantileLabel : GoString := text "quantile"

/-- `model.BucketLabel`, which gives the bound of a line of a histogram. -/
def bucketLabel : GoString := text "le"

/-- Whether a label is one of the metric, and not one of the line. -/
def ofMetric (metricType : MetricType) (labelName : GoString) : Bool :=
  (metricType != .summary || labelName != quantileLabel) &&
    (!ofHistogram metricType || labelName != bucketLabel)

/-! ## The machine -/

/-- The state functions. The parser calls the one that the last one has returned. -/
inductive StateFn where
  | startOfLine
  | startComment
  | readingMetricName
  | readingLabels
  | startLabelName
  | startLabelValue
  | readingValue
  | startTimestamp
  | readingHelp
  | readingType
  deriving DecidableEq, Repr

/-- The fields of the parser. Pointers to a family or to a metric are its name and its position. -/
structure TextParser where
  /-- What is left of `buf`. -/
  input : GoString
  currentByte : UInt8 := 0
  lineCount : ℕ := 0
  metricFamiliesByName : AList fun _ : GoString => DtoFamily ℕ := ∅
  metrics : List DtoMetric := []
  currentMF : Option GoString := none
  currentMetric : Option ℕ := none
  /-- The name of `currentLabelPair`. -/
  currentLabelName : GoString := []
  currentLabelPairs : List LabelPair := []
  currentLabels : Option Labels := none
  summaries : AList fun _ : UInt64 => ℕ := ∅
  histograms : AList fun _ : UInt64 => ℕ := ∅
  currentQuantile : Float64 := .nan
  currentBucket : Float64 := .nan
  currentIsSummaryCount : Bool := false
  currentIsSummarySum : Bool := false
  currentIsHistogramCount : Bool := false
  currentIsHistogramSum : Bool := false
  currentMetricIsInsideBraces : Bool := false
  currentMetricInsideBracesIsPresent : Bool := false
  deriving DecidableEq

namespace TextParser

/-- The parser once it has read up to a byte. -/
def readTo (p : TextParser) (current : UInt8) (input : GoString) : TextParser :=
  { p with currentByte := current, input := input }

/-- The family that `currentMF` points to. -/
def family (p : TextParser) : Option (DtoFamily ℕ) :=
  p.currentMF.bind p.metricFamiliesByName.lookup

/-- `p.currentMF.GetType()`. -/
def getType (p : TextParser) : MetricType :=
  (p.family.bind DtoFamily.type).getD .counter

/-- A write to the current family, which panics if there is none. -/
def updateMF (p : TextParser) (change : DtoFamily ℕ → DtoFamily ℕ) : Except Stop TextParser :=
  match p.currentMF with
  | none => .error .panic
  | some name => .ok { p with
      metricFamiliesByName := p.metricFamiliesByName.insert name (change (p.family.getD {})) }

/-- A write to the current metric, which panics if there is none. -/
def updateMetric (p : TextParser) (change : DtoMetric → DtoMetric) : Except Stop TextParser :=
  match p.currentMetric with
  | none => .error .panic
  | some position => .ok { p with metrics := p.metrics.modify position change }

/-- Whether a line is that of the sample count or of the sample sum of a metric. -/
structure LineKind where
  summaryCount : Bool := false
  summarySum : Bool := false
  histogramCount : Bool := false
  histogramSum : Bool := false

/-- The family that a line with the name belongs to, if the map holds it. -/
def findMF (p : TextParser) (name : GoString) : Option (GoString × LineKind) :=
  let typeOf (familyName : GoString) : Option MetricType :=
    (p.metricFamiliesByName.lookup familyName).map fun family => family.type.getD .counter
  if (p.metricFamiliesByName.lookup name).isSome then some (name, {})
  else if typeOf (summaryMetricName name) = some .summary then
    some (summaryMetricName name, { summaryCount := isCount name, summarySum := isSum name })
  else if (typeOf (histogramMetricName name)).any ofHistogram then
    some (histogramMetricName name, { histogramCount := isCount name, histogramSum := isSum name })
  else none

/-- The parser with the family as its current one, on a line of the kind. -/
def turnTo (p : TextParser) (name : GoString) (kind : LineKind) : TextParser :=
  { p with
    currentMF := some name
    currentIsSummaryCount := kind.summaryCount
    currentIsSummarySum := kind.summarySum
    currentIsHistogramCount := kind.histogramCount
    currentIsHistogramSum := kind.histogramSum }

/-- The family of a line becomes the current one, and is put into the map if it is not there. -/
def setOrCreateCurrentMF (p : TextParser) (name : GoString) : Except Stop TextParser := do
  ensure (name ≠ [] && validString name) .invalidMetricName
  match p.findMF name with
  | some (found, kind) => return p.turnTo found kind
  | none => return { p with
      metricFamiliesByName := p.metricFamiliesByName.insert name {} }.turnTo name {}

/-- A new metric of the family with the name, which is untyped if it has no type so far. -/
def startMetric (p : TextParser) (name : GoString) : Except Stop TextParser := do
  let p ← p.setOrCreateCurrentMF name
  let p ← p.updateMF fun family => { family with type := family.type.or (some .untyped) }
  return { p with currentMetric := some p.metrics.length, metrics := p.metrics ++ [{}] }

/-- The closing brace: the labels that have been collected are those of the metric. -/
def closeLabels (p : TextParser) : Except Stop (Option StateFn × TextParser) := do
  let p ← p.updateMetric fun metric =>
    { metric with label := metric.label ++ p.currentLabelPairs }
  let p := { p with currentLabelPairs := [] }
  let (current, input) ← skipBlankTab p.input
  return (some .readingValue, p.readTo current input)

/-- The parser at the start of a line. -/
def newLine (p : TextParser) (insideBraces : Bool) : TextParser :=
  { p with
    lineCount := p.lineCount + 1
    currentMetricIsInsideBraces := insideBraces
    currentMetricInsideBracesIsPresent := false }

/-- The first byte of a line decides whether it is a comment, empty or a sample. -/
def startOfLine (p : TextParser) : Except Stop (Option StateFn × TextParser) :=
  match skipBlankTab p.input with
  -- the only place where the input may end
  | .error _ => .ok (none, p.newLine false)
  | .ok (current, input) =>
      let p := (p.newLine (current == openBrace)).readTo current input
      if current == hashSign then .ok (some .startComment, p)
      else if current == newline then .ok (some .startOfLine, p)
      else if current == openBrace then .ok (some .readingLabels, p)
      else .ok (some .readingMetricName, p)

/-- A comment is skipped unless it describes the help text or the type of a family. -/
def startComment (p : TextParser) : Except Stop (Option StateFn × TextParser) := do
  let (current, input) ← skipBlankTab p.input
  if current == newline then return (some .startOfLine, p.readTo current input)
  let (keyword, current, input) ← readTokenUntilWhitespace (current :: input)
  if current == newline then return (some .startOfLine, p.readTo current input)
  if keyword ≠ text "HELP" ∧ keyword ≠ text "TYPE" then
    return (some .startOfLine, p.readTo newline (← skipLine input))
  let (current, input) ← skipBlankTab input
  let (name, current, input) ← readTokenAsMetricName (current :: input)
  if current == newline then return (some .startOfLine, p.readTo current input)
  ensure (isBlankOrTab current) .invalidNameInComment
  let p ← p.setOrCreateCurrentMF name
  let (current, input) ← skipBlankTab input
  if current == newline then return (some .startOfLine, p.readTo current input)
  return (some (if keyword = text "HELP" then .readingHelp else .readingType),
    p.readTo current input)

/-- The name in front of the labels, with which a metric starts. -/
def readingMetricName (p : TextParser) : Except Stop (Option StateFn × TextParser) := do
  let (name, current, input) ← readTokenAsMetricName (p.currentByte :: p.input)
  ensure (name ≠ []) .invalidMetricName
  let p ← p.startMetric name
  let (current, input) ← skipBlankTabIfCurrentBlankTab current input
  return (some .readingLabels, p.readTo current input)

/-- The labels of a line of a summary or of a histogram are collected from here on. -/
def resetLabels (p : TextParser) : TextParser :=
  if ofLines p.getType then
    { p with
      currentLabels := some (AList.singleton metricNameLabel (p.currentMF.getD []))
      currentQuantile := .nan
      currentBucket := .nan }
  else p

/-- Labels follow if there is an opening brace, and else the value. -/
def readingLabels (p : TextParser) : Except Stop (Option StateFn × TextParser) :=
  .ok (some (if p.currentByte == openBrace then .startLabelName else .readingValue),
    p.resetLabels)

/-- A name in braces that no value follows: it is the name of the metric. -/
def nameInBraces (p : TextParser) (name : GoString) :
    Except Stop (Option StateFn × TextParser) := do
  ensure p.currentMetricIsInsideBraces .expectedEquals
  ensure (!p.currentMetricInsideBracesIsPresent) .multipleMetricNames
  if p.currentByte == comma then
    let p ← p.startMetric name
    return (some .startLabelName, { p with currentMetricInsideBracesIsPresent := true })
  else if p.currentByte == closeBrace then
    let p ← p.startMetric name
    p.closeLabels
  else throw (.parseError .unexpectedEndOfName)

/-- The name of a label, or the closing brace. -/
def startLabelName (p : TextParser) : Except Stop (Option StateFn × TextParser) := do
  let (current, input) ← skipBlankTab p.input
  if current == closeBrace then
    ensure p.currentMF.isSome .invalidMetricName
    return ← (p.readTo current input).closeLabels
  let (name, current, input) ← readTokenAsLabelName (current :: input)
  ensure (name ≠ []) .invalidLabelName
  let (current, input) ← skipBlankTabIfCurrentBlankTab current input
  let p := p.readTo current input
  if current != equalsSign then return ← p.nameInBraces name
  ensure (name ≠ metricNameLabel) .reservedLabelName
  ensure (validString name) .invalidLabelName
  ensure (!(ofMetric p.getType name && p.currentLabelPairs.any (LabelPair.name · == some name)))
    .duplicateLabelNames
  return (some .startLabelValue, { p with currentLabelName := name })

/-- The label that has been read is one of the metric, or the quantile or the bound of its line. -/
def setLabel [Strconv] (p : TextParser) (value : GoString) : Except Stop TextParser :=
  let name := p.currentLabelName
  let p := if ofMetric p.getType name then
    { p with currentLabelPairs := p.currentLabelPairs ++ [⟨some name, some value⟩] } else p
  if !ofLines p.getType then .ok p
  else if ofMetric p.getType name then
    match p.currentLabels with
    | none => .error .panic
    | some labels => .ok { p with currentLabels := some (labels.insert name value) }
  else
    match parseFloat value with
    | none => .error (.parseError
        (if p.getType = .summary then .expectedQuantile else .expectedBucket))
    | some number =>
        if p.getType = .summary then .ok { p with currentQuantile := number }
        else .ok { p with currentBucket := number }

/-- The value of a label in quotes, with the comma or the brace behind it. -/
def startLabelValue [Strconv] (p : TextParser) : Except Stop (Option StateFn × TextParser) := do
  let (current, input) ← skipBlankTab p.input
  ensure (current == quote) .expectedQuote
  let (value, input) ← readTokenAsLabelValue false input
  ensure (validString value) .invalidLabelValue
  let p ← p.setLabel value
  let (current, input) ← skipBlankTab input
  let p := p.readTo current input
  if current == comma then return (some .startLabelName, p)
  else if current == closeBrace then
    ensure p.currentMF.isSome .invalidMetricName
    p.closeLabels
  else throw (.parseError .unexpectedEndOfValue)

/-- The current metric becomes the last one of the current family. -/
def appendMetric (p : TextParser) : Except Stop TextParser :=
  match p.currentMetric with
  | none => .error .panic
  | some position =>
      p.updateMF fun family => { family with metric := family.metric ++ [position] }

/-- The metric of the line: of a summary or a histogram, the one with the same labels, if there has
been one. -/
def placeMetric (p : TextParser) : Except Stop TextParser :=
  let signature := labelsToSignature (p.currentLabels.getD ∅)
  if p.getType = .summary then
    match p.summaries.lookup signature, p.currentMetric with
    | some position, _ => .ok { p with currentMetric := some position }
    | none, some position =>
        { p with summaries := p.summaries.insert signature position }.appendMetric
    | none, none => .error .panic
  else if ofHistogram p.getType then
    match p.histograms.lookup signature, p.currentMetric with
    | some position, _ => .ok { p with currentMetric := some position }
    | none, some position =>
        { p with histograms := p.histograms.insert signature position }.appendMetric
    | none, none => .error .panic
  else p.appendMetric

section

variable [Strconv]

/-- What a line says of a summary: its count, its sum or one of its quantiles. -/
def setSummary (p : TextParser) (value : Float64) (summary : DtoSummary) : DtoSummary :=
  if p.currentIsSummaryCount then { summary with sampleCount := some (Strconv.uint64 value) }
  else if p.currentIsSummarySum then { summary with sampleSum := some value }
  else if !p.currentQuantile.isNaN then
    { summary with quantile := summary.quantile ++ [⟨p.currentQuantile, value⟩] }
  else summary

/-- A count of a histogram: an integer if it is one, else a floating point number, which must not
be negative. -/
def readCount (value : Float64) : Option (Option UInt64 × Option Float64) :=
  if value.equals (Strconv.float64 (Strconv.uint64 value)) then
    some (some (Strconv.uint64 value), none)
  else if value.isNegative then none
  else some (none, some value)

/-- What a line says of a histogram: its count, its sum or one of its buckets. -/
def setHistogram (p : TextParser) (value : Float64) (histogram : DtoHistogram) :
    Except Stop DtoHistogram :=
  if p.currentIsHistogramCount then
    match readCount value with
    | none => .error (.parseError .negativeCount)
    | some (count, countFloat) => .ok { histogram with
        sampleCount := count.or histogram.sampleCount
        sampleCountFloat := countFloat.or histogram.sampleCountFloat }
  else if p.currentIsHistogramSum then .ok { histogram with sampleSum := some value }
  else if !p.currentBucket.isNaN then
    match readCount value with
    | none => .error (.parseError .negativeBucket)
    | some (count, countFloat) => .ok { histogram with
        bucket := histogram.bucket ++ [⟨count, countFloat, p.currentBucket⟩] }
  else .ok histogram

/-- The value of a line goes to the metric, in the way of its type. -/
def setValue (p : TextParser) (value : Float64) : Except Stop TextParser :=
  match p.getType with
  | .counter => p.updateMetric fun metric => { metric with counter := some value }
  | .gauge => p.updateMetric fun metric => { metric with gauge := some value }
  | .untyped => p.updateMetric fun metric => { metric with untyped := some value }
  | .summary => p.updateMetric fun metric =>
      { metric with summary := some (p.setSummary value (metric.summary.getD {})) }
  | .histogram | .gaugeHistogram => do
      let held := (p.currentMetric.bind (p.metrics[·]?)).bind DtoMetric.histogram
      let histogram ← p.setHistogram value (held.getD {})
      p.updateMetric fun metric => { metric with histogram := some histogram }

/-- The value of a line, with the metric that it belongs to. -/
def readingValue (p : TextParser) : Except Stop (Option StateFn × TextParser) := do
  let p ← p.placeMetric
  let (token, current, input) ← readTokenUntilWhitespace (p.currentByte :: p.input)
  match parseFloat token with
  | none => throw (.parseError .expectedFloat)
  | some value =>
      let p ← (p.readTo current input).setValue value
      return (some (if current == newline then .startOfLine else .startTimestamp), p)

end

/-- The timestamp behind a value, with which the line has to end. -/
def startTimestamp (p : TextParser) : Except Stop (Option StateFn × TextParser) := do
  let (current, input) ← skipBlankTab p.input
  let (token, current, input) ← readTokenUntilWhitespace (current :: input)
  match parseInt token with
  | none => throw (.parseError .expectedTimestamp)
  | some timestamp =>
      let p ← p.updateMetric fun metric => { metric with timestampMs := some timestamp }
      let (token, current, input) ← readTokenUntilNewline false false (current :: input)
      ensure (token = []) .spuriousString
      return (some .startOfLine, p.readTo current input)

/-- The help text of a family, which must not have one. -/
def readingHelp (p : TextParser) : Except Stop (Option StateFn × TextParser) := do
  ensure (p.family.bind DtoFamily.help).isNone .secondHelp
  let (token, current, input) ← readTokenUntilNewline true false (p.currentByte :: p.input)
  let p ← p.updateMF fun family => { family with help := some token }
  return (some .startOfLine, p.readTo current input)

/-- `dto.MetricType_value`, and the name of a gauge histogram in OpenMetrics. -/
def metricTypeValue (typ : GoString) : Option MetricType :=
  if typ = text "COUNTER" then some .counter
  else if typ = text "GAUGE" then some .gauge
  else if typ = text "SUMMARY" then some .summary
  else if typ = text "UNTYPED" then some .untyped
  else if typ = text "HISTOGRAM" then some .histogram
  else if typ = text "GAUGE_HISTOGRAM" then some .gaugeHistogram
  else if typ = text "GAUGEHISTOGRAM" then some .gaugeHistogram
  else none

variable [Strconv]

/-- The type of a family, which must not have one. -/
def readingType (p : TextParser) : Except Stop (Option StateFn × TextParser) := do
  ensure (p.family.bind DtoFamily.type).isNone .secondType
  let (token, current, input) ← readTokenUntilNewline false false (p.currentByte :: p.input)
  match metricTypeValue (Strconv.toUpper token) with
  | none => throw (.parseError .unknownType)
  | some metricType =>
      let p ← p.updateMF fun family => { family with type := some metricType }
      return (some .startOfLine, p.readTo current input)

/-- The next state; none at the end of the input. -/
def step (p : TextParser) : StateFn → Except Stop (Option StateFn × TextParser)
  | .startOfLine => p.startOfLine
  | .startComment => p.startComment
  | .readingMetricName => p.readingMetricName
  | .readingLabels => p.readingLabels
  | .startLabelName => p.startLabelName
  | .startLabelValue => p.startLabelValue
  | .readingValue => p.readingValue
  | .startTimestamp => p.startTimestamp
  | .readingHelp => p.readingHelp
  | .readingType => p.readingType

/-- Why an exposition is not read: an error in a line, or a panic. -/
inductive Failure where
  | parseError (line : ℕ) (msg : ParseMsg)
  | panic
  deriving DecidableEq, Repr

/-- One move of the machine, with an error located in its line. -/
def next (state : StateFn × TextParser) :
    Except Failure ((StateFn × TextParser) ⊕ TextParser) :=
  match state.2.step state.1 with
  | .error .panic => .error .panic
  | .error (.parseError msg) => .error (.parseError state.2.lineCount msg)
  | .ok (none, p) => .ok (.inr p)
  | .ok (some after, p) => .ok (.inl (after, p))

/-! ## The result -/

/-- A count of a histogram that has floating point counts. -/
def normalizeCount (count : Option UInt64) (countFloat : Option Float64) :
    Option UInt64 × Option Float64 :=
  if countFloat.all Float64.isZero then (none, some (Strconv.float64 (count.getD 0)))
  else (count, countFloat)

/-- All counts of a histogram are floating point numbers if one of them is. -/
def normalizeHistogram (histogram : DtoHistogram) : DtoHistogram :=
  if histogram.sampleCountFloat.all Float64.isZero &&
      histogram.bucket.all fun b => b.cumulativeCountFloat.all Float64.isZero then histogram
  else
    let sampleCount := normalizeCount histogram.sampleCount histogram.sampleCountFloat
    { histogram with
      sampleCount := sampleCount.1
      sampleCountFloat := sampleCount.2
      bucket := histogram.bucket.map fun b =>
        let count := normalizeCount b.cumulativeCount b.cumulativeCountFloat
        { b with cumulativeCount := count.1, cumulativeCountFloat := count.2 } }

/-- A metric once its histogram, if it has one, is normalized. -/
def normalizeMetric (metric : DtoMetric) : DtoMetric :=
  { metric with histogram := metric.histogram.map normalizeHistogram }

/-- The metrics once all histograms are normalized. -/
def normalized (p : TextParser) : List DtoMetric :=
  p.histograms.entries.foldl (fun metrics entry => metrics.modify entry.2 normalizeMetric) p.metrics

/-- The map without the families that have no metrics. -/
def nonEmptyFamilies (p : TextParser) : AList fun _ : GoString => DtoFamily ℕ :=
  p.metricFamiliesByName.entries.foldl
    (fun families entry => if entry.2.metric = [] then families.erase entry.1 else families)
    p.metricFamiliesByName

/-- The map that is returned, with the metrics in the place of their positions. -/
def families (p : TextParser) : AList fun _ : GoString => DtoFamily DtoMetric :=
  mapValues (fun family => { family with metric := family.metric.filterMap (p.normalized[·]?) })
    p.nonEmptyFamilies

end TextParser

/-- `TextToMetricFamilies`. The bound on the number of moves is never reached. -/
def textToMetricFamilies [Strconv] (input : GoString) :
    Option (Except TextParser.Failure (AList fun _ : GoString => DtoFamily DtoMetric)) :=
  (Machine.run TextParser.next (3 * input.length + 3) (.startOfLine, { input })).map
    (Except.map TextParser.families)

/-- The value of a metric of which exactly one value pointer is set. -/
def DtoMetric.value (metric : DtoMetric) : Option Value :=
  match metric.counter, metric.gauge, metric.untyped, metric.summary, metric.histogram with
  | some value, none, none, none, none => some (.counter value)
  | none, some value, none, none, none => some (.gauge value)
  | none, none, some value, none, none => some (.untyped value)
  | none, none, none, some summary, none =>
      some (.summary (summary.sampleCount.getD 0) (summary.sampleSum.getD .zero) summary.quantile)
  | none, none, none, none, some histogram =>
      some (.histogram (histogram.sampleCount.getD 0) (histogram.sampleCountFloat.getD .zero)
        (histogram.sampleSum.getD .zero) (histogram.bucket.map fun b =>
          ⟨b.cumulativeCount.getD 0, b.cumulativeCountFloat.getD .zero, b.upperBound⟩))
  | _, _, _, _, _ => none

/-- A metric as its getters show it. -/
def DtoMetric.toMetric (metric : DtoMetric) : Option Metric :=
  metric.value.map fun value => { label := metric.label, value, timestampMs := metric.timestampMs }

/-- What the getters of a family return. -/
def DtoFamily.toMetricFamily (name : GoString) (family : DtoFamily DtoMetric) :
    Option MetricFamily :=
  (family.metric.mapM DtoMetric.toMetric).map fun metric =>
    { name := some name, help := family.help, type := family.type, metric }

end Expfmt

end Promfetcher
