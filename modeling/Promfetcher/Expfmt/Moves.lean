import Promfetcher.Expfmt.TextParser

/-!
# The moves of the text parser

What each state of the parser does: how far it reads, which operation it performs,
and which state comes next. From this it follows that the parser comes to an end
on every input, and where it can panic.
-/

namespace Promfetcher

open Foundation

namespace Expfmt

namespace TextParser

/-! ## The operations on families and metrics -/

/-- A panic has the given cause. -/
def PanicsIf (cause : Prop) (stop : Stop) : Prop :=
  stop = .panic → cause

theorem panicsIf_parseError (cause : Prop) (msg : ParseMsg) : PanicsIf cause (.parseError msg) := by
  intro isPanic
  cases isPanic

theorem meets_of_noPanic {Value : Type} {promised : Value → Prop} {cause : Prop}
    {computation : Except Stop Value} (meets : Meets NoPanic promised computation) :
    Meets (PanicsIf cause) promised computation :=
  meets.mono (fun _ noPanic panics => absurd panics noPanic) fun _ => id

theorem PanicsIf.mono {cause weaker : Prop} (weakens : cause → weaker) (stop : Stop)
    (panics : PanicsIf cause stop) : PanicsIf weaker stop :=
  fun isPanic => weakens (panics isPanic)

variable (p : TextParser)

theorem meets_updateMF (change : DtoFamily ℕ → DtoFamily ℕ) :
    Meets (PanicsIf (p.currentMF = none))
      (fun q => ∃ name, p.currentMF = some name ∧ q = { p with
        metricFamiliesByName :=
          p.metricFamiliesByName.insert name (change (p.family.getD {})) })
      (p.updateMF change) := by
  unfold updateMF
  split
  case h_1 missing => exact fun _ => missing
  case h_2 name isCurrent => exact ⟨name, isCurrent, rfl⟩

theorem meets_updateMetric (change : DtoMetric → DtoMetric) :
    Meets (PanicsIf (p.currentMetric = none))
      (fun q => ∃ position, p.currentMetric = some position ∧
        q = { p with metrics := p.metrics.modify position change })
      (p.updateMetric change) := by
  unfold updateMetric
  split
  case h_1 missing => exact fun _ => missing
  case h_2 position isCurrent => exact ⟨position, isCurrent, rfl⟩

theorem lookup_of_findMF {name found : GoString} {kind : LineKind}
    (finds : p.findMF name = some (found, kind)) :
    (p.metricFamiliesByName.lookup found).isSome := by
  unfold findMF at finds
  dsimp only at finds
  split_ifs at finds with held isSummary isHistogram
  · cases finds
    exact held
  · cases finds
    rcases Option.map_eq_some_iff.mp isSummary with ⟨family, lookup, _⟩
    exact Option.isSome_of_eq_some lookup
  · cases finds
    cases lookup : p.metricFamiliesByName.lookup (histogramMetricName name) with
    | none => simp [lookup] at isHistogram
    | some family => rfl

/-- A family with the name is created if none is found. -/
inductive Creates (p : TextParser) (name : GoString) :
    (AList fun _ : GoString => DtoFamily ℕ) → Prop where
  | found : Creates p name p.metricFamiliesByName
  | created (name_ne_nil : name ≠ []) (valid : validString name = true)
      (missing : p.metricFamiliesByName.lookup name = none) :
      Creates p name (p.metricFamiliesByName.insert name {})

theorem lookup_of_findMF_eq_none {name : GoString} (finds : p.findMF name = none) :
    p.metricFamiliesByName.lookup name = none := by
  unfold findMF at finds
  dsimp only at finds
  split_ifs at finds with held
  simpa using held

theorem meets_setOrCreateCurrentMF (name : GoString) :
    Meets NoPanic
      (fun q => ∃ families found kind, p.Creates name families ∧
        (families.lookup found).isSome ∧
        q = { p with metricFamiliesByName := families }.turnTo found kind)
      (p.setOrCreateCurrentMF name) := by
  unfold setOrCreateCurrentMF
  refine (meets_ensure _ _).bind fun _ valid => ?_
  simp only [ne_eq, decide_not, Bool.and_eq_true, Bool.not_eq_eq_eq_not, Bool.not_true,
    decide_eq_false_iff_not] at valid
  split
  case h_1 found kind finds =>
      exact ⟨_, found, kind, .found, p.lookup_of_findMF finds, rfl⟩
  case h_2 finds =>
      refine ⟨_, name, {}, .created valid.1 valid.2 (p.lookup_of_findMF_eq_none finds), ?_, rfl⟩
      rw [AList.lookup_insert]
      rfl

theorem meets_startMetric (name : GoString) :
    Meets NoPanic
      (fun q => ∃ families found kind family, p.Creates name families ∧
        families.lookup found = some family ∧
        q = { p.turnTo found kind with
          metricFamiliesByName :=
            families.insert found { family with type := family.type.or (some .untyped) }
          currentMetric := some p.metrics.length
          metrics := p.metrics ++ [{}] })
      (p.startMetric name) := by
  unfold startMetric
  refine (p.meets_setOrCreateCurrentMF name).bind ?_
  rintro _ ⟨families, found, kind, creates, held, rfl⟩
  rcases Option.isSome_iff_exists.mp held with ⟨family, lookup⟩
  refine ⟨families, found, kind, family, creates, lookup, ?_⟩
  simp [turnTo, TextParser.family, lookup]

theorem input_of_startMetric {name : GoString} {started : TextParser}
    (starts : p.startMetric name = .ok started) : started.input = p.input := by
  rcases (p.meets_startMetric name).value starts with ⟨_, _, _, _, _, _, rfl⟩
  rfl

/-- The labels that were read are those of the metric. -/
def attachLabels (position : ℕ) : TextParser :=
  { p with
    metrics := p.metrics.modify position fun metric =>
      { metric with label := metric.label ++ p.currentLabelPairs }
    currentLabelPairs := [] }

theorem meets_closeLabels :
    Meets (PanicsIf (p.currentMetric = none))
      (fun result => ∃ position current input, p.currentMetric = some position ∧
        Reads p.input current input ∧
        result = (some .readingValue, (p.attachLabels position).readTo current input))
      p.closeLabels := by
  unfold closeLabels
  refine (p.meets_updateMetric _).bind ?_
  rintro _ ⟨position, isCurrent, rfl⟩
  refine (meets_of_noPanic (meets_skipBlankTab p.input)).bind ?_
  rintro ⟨current, input⟩ ⟨reads, _⟩
  exact ⟨position, current, input, isCurrent, reads, rfl⟩

theorem meets_nameInBraces (name : GoString) :
    Meets NoPanic
      (fun result => ∃ started, p.startMetric name = .ok started ∧
        p.currentMetricIsInsideBraces = true ∧
        (result = (some .startLabelName,
            { started with currentMetricInsideBracesIsPresent := true }) ∨
          started.closeLabels = .ok result))
      (p.nameInBraces name) := by
  unfold nameInBraces
  refine (meets_ensure _ _).bind fun _ inside => ?_
  refine (meets_ensure _ _).bind fun _ _ => ?_
  split
  · exact ((p.meets_startMetric name).and fun _ => id).bind fun started starts =>
      ⟨started, starts.2, inside, .inl rfl⟩
  · split
    · refine ((p.meets_startMetric name).and fun _ => id).bind ?_
      rintro started ⟨⟨_, _, _, _, _, _, rfl⟩, starts⟩
      refine ((meets_closeLabels _).and fun _ => id).mono ?_ ?_
      · exact fun stop panics isPanic => absurd (panics isPanic) (Option.some_ne_none _)
      · exact fun result closes => ⟨_, starts, inside, .inr closes.2⟩
    · exact noPanic_parseError _

/-- The label that was read is kept for the metric, or its value is that of the line. -/
theorem meets_setLabel [Strconv] (value : GoString) :
    Meets (PanicsIf (ofLines p.getType = true ∧ p.currentLabels = none))
      (fun q => ∃ pairs labels quantile bucket,
        (pairs = p.currentLabelPairs ∧ labels = p.currentLabels ∨
          ofMetric p.getType p.currentLabelName = true ∧
            pairs = p.currentLabelPairs ++ [⟨some p.currentLabelName, some value⟩] ∧
            (ofLines p.getType = true →
              labels = p.currentLabels.map (AList.insert p.currentLabelName value))) ∧
        q = { p with
          currentLabelPairs := pairs
          currentLabels := labels
          currentQuantile := quantile
          currentBucket := bucket })
      (p.setLabel value) := by
  unfold setLabel
  by_cases isOfMetric : ofMetric p.getType p.currentLabelName = true
  · have kept : ({ p with
        currentLabelPairs := p.currentLabelPairs ++ [⟨some p.currentLabelName, some value⟩] } :
        TextParser).getType = p.getType := rfl
    simp only [if_pos isOfMetric, kept]
    split
    case isTrue notOfLines =>
        refine ⟨_, _, _, _, .inr ⟨isOfMetric, rfl, fun isOfLines => ?_⟩, rfl⟩
        simp [isOfLines] at notOfLines
    case isFalse isOfLines =>
        split
        case h_1 missing => exact fun _ => ⟨by simpa using isOfLines, missing⟩
        case h_2 labels collected =>
            exact ⟨_, _, _, _, .inr ⟨isOfMetric, rfl, fun _ => by rw [collected]; rfl⟩, rfl⟩
  · simp only [if_neg isOfMetric]
    split
    · exact ⟨_, _, _, _, .inl ⟨rfl, rfl⟩, rfl⟩
    · split
      case h_1 => exact panicsIf_parseError _ _
      case h_2 number _ =>
          split
          · exact ⟨_, _, number, _, .inl ⟨rfl, rfl⟩, rfl⟩
          · exact ⟨_, _, _, number, .inl ⟨rfl, rfl⟩, rfl⟩

/-- The signature of the labels that have been collected. -/
def sign : UInt64 :=
  labelsToSignature (p.currentLabels.getD ∅)

/-- How a metric that is listed for the first time is found again. -/
inductive Files (p : TextParser) (position : ℕ) :
    (AList fun _ : UInt64 => ℕ) → (AList fun _ : UInt64 => ℕ) → Prop where
  | summary (isSummary : p.getType = .summary) (missing : p.summaries.lookup p.sign = none) :
      Files p position (p.summaries.insert p.sign position) p.histograms
  | histogram (isHistogram : ofHistogram p.getType = true)
      (missing : p.histograms.lookup p.sign = none) :
      Files p position p.summaries (p.histograms.insert p.sign position)
  | single (notOfLines : ofLines p.getType = false) : Files p position p.summaries p.histograms

/-- Where the metric of a line is kept. -/
inductive Places (p : TextParser) : TextParser → Prop where
  | summary {signature : UInt64} {position : ℕ} (isSummary : p.getType = .summary)
      (found : p.summaries.lookup signature = some position) :
      Places p { p with currentMetric := some position }
  | histogram {signature : UInt64} {position : ℕ} (isHistogram : ofHistogram p.getType = true)
      (found : p.histograms.lookup signature = some position) :
      Places p { p with currentMetric := some position }
  | new {summaries histograms : AList fun _ : UInt64 => ℕ} {position : ℕ} {name : GoString}
      (files : p.Files position summaries histograms)
      (isCurrent : p.currentMetric = some position) (isCurrentMF : p.currentMF = some name) :
      Places p { p with
        summaries := summaries
        histograms := histograms
        metricFamiliesByName := p.metricFamiliesByName.insert name
          { p.family.getD {} with metric := (p.family.getD {}).metric ++ [position] } }

theorem meets_appendMetric :
    Meets (PanicsIf (p.currentMetric = none ∨ p.currentMF = none))
      (fun q => ∃ position name, p.currentMetric = some position ∧ p.currentMF = some name ∧
        q = { p with
          metricFamiliesByName := p.metricFamiliesByName.insert name
            { p.family.getD {} with metric := (p.family.getD {}).metric ++ [position] } })
      p.appendMetric := by
  unfold appendMetric
  split
  case h_1 missing => exact fun _ => Or.inl missing
  case h_2 position isCurrent =>
      refine (p.meets_updateMF _).mono (PanicsIf.mono Or.inr) ?_
      rintro _ ⟨name, isCurrentMF, rfl⟩
      exact ⟨position, name, isCurrent, isCurrentMF, rfl⟩

theorem meets_placeMetric :
    Meets (PanicsIf (p.currentMetric = none ∨ p.currentMF = none)) p.Places p.placeMetric := by
  unfold placeMetric
  dsimp only
  split_ifs with isSummary isHistogram
  · split
    case h_1 position _ found => exact .summary isSummary found
    case h_2 position missing isCurrent =>
        refine (meets_appendMetric _).weaken ?_
        rintro _ ⟨other, name, sameCurrent, isCurrentMF, rfl⟩
        cases isCurrent.symm.trans sameCurrent
        exact .new (.summary isSummary missing) isCurrent isCurrentMF
    case h_3 _ missing => exact fun _ => Or.inl missing
  · split
    case h_1 position _ found => exact .histogram isHistogram found
    case h_2 position missing isCurrent =>
        refine (meets_appendMetric _).weaken ?_
        rintro _ ⟨other, name, sameCurrent, isCurrentMF, rfl⟩
        cases isCurrent.symm.trans sameCurrent
        exact .new (.histogram isHistogram missing) isCurrent isCurrentMF
    case h_3 _ missing => exact fun _ => Or.inl missing
  · refine p.meets_appendMetric.weaken ?_
    rintro _ ⟨position, name, isCurrent, isCurrentMF, rfl⟩
    exact .new (.single (by simp [ofLines, isSummary, isHistogram])) isCurrent isCurrentMF

theorem Places.isSome_currentMetric {p placed : TextParser} (places : p.Places placed) :
    placed.currentMetric.isSome := by
  cases places with
  | summary | histogram => rfl
  | new _ isCurrent => exact Option.isSome_of_eq_some isCurrent

theorem Places.unread {p placed : TextParser} (places : p.Places placed) :
    placed.currentByte :: placed.input = p.currentByte :: p.input := by
  cases places <;> rfl

end TextParser

/-- Whether the value pointer of a kind is set. -/
def DtoMetric.carries (metric : DtoMetric) : Kind → Bool
  | .counter => metric.counter.isSome
  | .gauge => metric.gauge.isSome
  | .untyped => metric.untyped.isSome
  | .summary => metric.summary.isSome
  | .histogram => metric.histogram.isSome

/-- The change sets the value pointer of the kind, and touches neither the others nor the labels. -/
structure SetsValue (kind : Kind) (change : DtoMetric → DtoMetric) : Prop where
  label : ∀ metric, (change metric).label = metric.label
  carries : ∀ metric other,
    (change metric).carries other = (decide (other = kind) || metric.carries other)

namespace TextParser

variable (p : TextParser)

theorem meets_setHistogram [Strconv] (value : Float64) (histogram : DtoHistogram) :
    Meets NoPanic (fun _ => True) (p.setHistogram value histogram) := by
  unfold setHistogram
  split_ifs
  · split
    · exact noPanic_parseError _
    · trivial
  · trivial
  · split
    · exact noPanic_parseError _
    · trivial
  · trivial

theorem meets_setValue [Strconv] (value : Float64) :
    Meets (PanicsIf (p.currentMetric = none))
      (fun q => ∃ position change, p.currentMetric = some position ∧
        SetsValue p.getType.kind change ∧
        q = { p with metrics := p.metrics.modify position change })
      (p.setValue value) := by
  have update {kind : Kind} {change : DtoMetric → DtoMetric} (sets : SetsValue kind change) :
      Meets (PanicsIf (p.currentMetric = none))
        (fun q => ∃ position change, p.currentMetric = some position ∧ SetsValue kind change ∧
          q = { p with metrics := p.metrics.modify position change })
        (p.updateMetric change) := by
    refine (p.meets_updateMetric change).weaken ?_
    rintro _ ⟨position, isCurrent, rfl⟩
    exact ⟨position, change, isCurrent, sets, rfl⟩
  unfold setValue
  cases p.getType with
  | counter => exact update ⟨fun _ => rfl, fun _ other => by cases other <;> rfl⟩
  | gauge => exact update ⟨fun _ => rfl, fun _ other => by cases other <;> rfl⟩
  | untyped => exact update ⟨fun _ => rfl, fun _ other => by cases other <;> rfl⟩
  | summary => exact update ⟨fun _ => rfl, fun _ other => by cases other <;> rfl⟩
  | histogram | gaugeHistogram =>
      exact (meets_of_noPanic (p.meets_setHistogram value _)).bind fun _ _ =>
        update ⟨fun _ => rfl, fun _ other => by cases other <;> rfl⟩

/-! ## Moves -/

/-- What the parser does in a state: the next state, and the parser then. -/
inductive Move [Strconv] (p : TextParser) : StateFn → StateFn → TextParser → Prop where
  | emptyLine {input : GoString} (skips : skipBlankTab p.input = .ok (newline, input)) :
      Move p .startOfLine .startOfLine ((p.newLine false).readTo newline input)
  | bracedLine {input : GoString} (skips : skipBlankTab p.input = .ok (openBrace, input)) :
      Move p .startOfLine .readingLabels ((p.newLine true).readTo openBrace input)
  | commentLine {input : GoString} (skips : skipBlankTab p.input = .ok (hashSign, input)) :
      Move p .startOfLine .startComment ((p.newLine false).readTo hashSign input)
  | sampleLine {current : UInt8} {input : GoString}
      (skips : skipBlankTab p.input = .ok (current, input)) (other : current ≠ newline) :
      Move p .startOfLine .readingMetricName ((p.newLine false).readTo current input)
  | comment {input : GoString} (reads : Reads p.input newline input) :
      Move p .startComment .startOfLine (p.readTo newline input)
  | emptyDescription {name input : GoString} {found : TextParser}
      (finds : p.setOrCreateCurrentMF name = .ok found) (reads : Reads p.input newline input) :
      Move p .startComment .startOfLine (found.readTo newline input)
  | description {name input : GoString} {found : TextParser} {current : UInt8} {after : StateFn}
      (finds : p.setOrCreateCurrentMF name = .ok found) (reads : Reads p.input current input)
      (keyword : after = .readingHelp ∨ after = .readingType) :
      Move p .startComment after (found.readTo current input)
  | metricName {name input : GoString} {started : TextParser} {current : UInt8}
      (starts : p.startMetric name = .ok started) (reads : Reads p.input current input) :
      Move p .readingMetricName .readingLabels (started.readTo current input)
  | labels : Move p .readingLabels
      (if p.currentByte == openBrace then .startLabelName else .readingValue) p.resetLabels
  | noMoreLabels {input : GoString} {after : StateFn} {q : TextParser}
      (reads : Reads p.input closeBrace input)
      (closes : (p.readTo closeBrace input).closeLabels = .ok (some after, q)) :
      Move p .startLabelName after q
  | nameInBraces {name input : GoString} {current : UInt8} {after : StateFn} {q : TextParser}
      (reads : Reads p.input current input)
      (isName : (p.readTo current input).nameInBraces name = .ok (some after, q)) :
      Move p .startLabelName after q
  | labelName {name input : GoString} (reads : Reads p.input equalsSign input)
      (name_ne_nil : name ≠ []) (notReserved : name ≠ metricNameLabel)
      (valid : validString name = true)
      (notDuplicate : ofMetric p.getType name = true →
        ∀ label ∈ p.currentLabelPairs, label.name ≠ some name) :
      Move p .startLabelName .startLabelValue
        { p.readTo equalsSign input with currentLabelName := name }
  | labelValue {value input : GoString} {labelled : TextParser}
      (valid : validString value = true) (sets : p.setLabel value = .ok labelled)
      (reads : Reads p.input comma input) :
      Move p .startLabelValue .startLabelName (labelled.readTo comma input)
  | lastLabelValue {value input : GoString} {labelled q : TextParser} {after : StateFn}
      (valid : validString value = true) (sets : p.setLabel value = .ok labelled)
      (reads : Reads p.input closeBrace input)
      (closes : (labelled.readTo closeBrace input).closeLabels = .ok (some after, q)) :
      Move p .startLabelValue after q
  | value {value : Float64} {current : UInt8} {input : GoString} {placed q : TextParser}
      {after : StateFn} (places : p.placeMetric = .ok placed)
      (reads : Reads (p.currentByte :: p.input) current input)
      (sets : (placed.readTo current input).setValue value = .ok q)
      (continues : after = .startOfLine ∧ current = newline ∨ after = .startTimestamp) :
      Move p .readingValue after q
  | timestamp {timestamp : ℤ} {input : GoString} {timed : TextParser}
      (bounds : -2 ^ 63 ≤ timestamp ∧ timestamp < 2 ^ 63)
      (sets : (p.updateMetric fun metric => { metric with timestampMs := some timestamp }) =
        .ok timed) (reads : Reads p.input newline input) :
      Move p .startTimestamp .startOfLine (timed.readTo newline input)
  | help {token input : GoString} {described : TextParser}
      (sets : (p.updateMF fun family => { family with help := some token }) = .ok described)
      (reads : Reads (p.currentByte :: p.input) newline input) :
      Move p .readingHelp .startOfLine (described.readTo newline input)
  | type {metricType : MetricType} {input : GoString} {described : TextParser}
      (missing : p.family.bind DtoFamily.type = none)
      (sets : (p.updateMF fun family => { family with type := some metricType }) = .ok described)
      (reads : Reads (p.currentByte :: p.input) newline input) :
      Move p .readingType .startOfLine (described.readTo newline input)

/-- If the parser goes on, it makes a move. Else the input has come to an end. -/
structure Goes [Strconv] (p : TextParser) (state : StateFn) (result : Option StateFn × TextParser) :
    Prop where
  move : ∀ after, result.1 = some after → p.Move state after result.2
  ends : result.1 = none → result.2 = p.newLine false

theorem goes_some [Strconv] {p q : TextParser} {state after : StateFn}
    (move : p.Move state after q) : p.Goes state (some after, q) where
  move other isNext := by
    cases isNext
    exact move
  ends isEnd := by cases isEnd

section

variable [Strconv]

theorem meets_startOfLine : Meets NoPanic (p.Goes .startOfLine) p.startOfLine := by
  unfold startOfLine
  split
  case h_1 => exact ⟨nofun, fun _ => rfl⟩
  case h_2 current input skips =>
      dsimp only
      split_ifs with isHash isNewline isBrace
      · rw [beq_iff_eq] at isHash
        subst isHash
        exact goes_some (.commentLine skips)
      · rw [beq_iff_eq] at isNewline
        subst isNewline
        exact goes_some (.emptyLine skips)
      · rw [beq_iff_eq] at isBrace
        subst isBrace
        exact goes_some (.bracedLine skips)
      · rw [Bool.not_eq_true] at isBrace
        rw [isBrace]
        exact goes_some (.sampleLine skips (by simpa using isNewline))

theorem meets_startComment : Meets NoPanic (p.Goes .startComment) p.startComment := by
  unfold startComment
  refine (meets_skipBlankTab p.input).bind ?_
  rintro ⟨current, input⟩ ⟨reads, _⟩
  dsimp only at reads ⊢
  split
  case isTrue ends => exact goes_some (eq_of_beq ends ▸ .comment (eq_of_beq ends ▸ reads))
  refine (meets_readTokenUntilWhitespace (current :: input)).bind ?_
  rintro ⟨keyword, current, input⟩ more
  replace reads := reads.again more
  dsimp only at reads ⊢
  split
  case isTrue ends => exact goes_some (eq_of_beq ends ▸ .comment (eq_of_beq ends ▸ reads))
  case isFalse inside =>
  have current_ne : current ≠ newline := by simpa using inside
  split
  case isTrue =>
      exact (meets_skipLine input).bind fun rest skips =>
        goes_some (.comment (reads.trans current_ne skips))
  refine (meets_skipBlankTab input).bind ?_
  rintro ⟨current, input⟩ ⟨more, _⟩
  replace reads := reads.trans current_ne more
  refine (meets_readTokenAsMetricName current input).bind ?_
  rintro ⟨name, current, input⟩ ⟨more, _⟩
  replace reads := reads.again more
  dsimp only at reads ⊢
  split
  case isTrue ends => exact goes_some (eq_of_beq ends ▸ .comment (eq_of_beq ends ▸ reads))
  case isFalse inside =>
  have current_ne : current ≠ newline := by simpa using inside
  refine (meets_ensure _ _).bind fun _ _ => ?_
  refine ((p.meets_setOrCreateCurrentMF name).and fun _ => id).bind fun found finds => ?_
  refine (meets_skipBlankTab input).bind ?_
  rintro ⟨current, input⟩ ⟨more, _⟩
  replace reads := reads.trans current_ne more
  dsimp only at reads ⊢
  split
  case isTrue ends =>
      exact goes_some (eq_of_beq ends ▸ .emptyDescription finds.2 (eq_of_beq ends ▸ reads))
  case isFalse =>
      refine goes_some (.description finds.2 reads ?_)
      split
      · exact Or.inl rfl
      · exact Or.inr rfl

theorem meets_readingMetricName :
    Meets NoPanic (p.Goes .readingMetricName) p.readingMetricName := by
  unfold readingMetricName
  refine (meets_readTokenAsMetricName _ _).bind ?_
  rintro ⟨name, current, input⟩ ⟨_, reads⟩
  refine (meets_ensure _ _).bind fun _ name_ne_nil => ?_
  replace reads := reads (by simpa using name_ne_nil)
  refine ((p.meets_startMetric name).and fun _ => id).bind fun started starts => ?_
  refine (meets_skipBlankTabIfCurrentBlankTab _ _).bind ?_
  rintro ⟨current, input⟩ more
  exact goes_some (.metricName starts.2 (reads.again more))

theorem meets_startLabelName :
    Meets (PanicsIf (p.currentMetric = none)) (p.Goes .startLabelName) p.startLabelName := by
  unfold startLabelName
  refine (meets_of_noPanic (meets_skipBlankTab p.input)).bind ?_
  rintro ⟨current, input⟩ ⟨reads, _⟩
  dsimp only at reads ⊢
  split
  case isTrue closing =>
      rw [beq_iff_eq] at closing
      subst closing
      refine (meets_of_noPanic (meets_ensure _ _)).bind fun _ _ => ?_
      refine ((meets_closeLabels _).and fun _ => id).weaken ?_
      rintro _ ⟨⟨_, _, _, _, _, rfl⟩, closes⟩
      exact goes_some (.noMoreLabels reads closes)
  case isFalse =>
      refine (meets_of_noPanic (meets_readTokenAsLabelName current input)).bind ?_
      rintro ⟨name, current, input⟩ more
      replace reads := reads.again more
      refine (meets_of_noPanic (meets_ensure _ _)).bind fun _ name_ne_nil => ?_
      refine (meets_of_noPanic (meets_skipBlankTabIfCurrentBlankTab _ _)).bind ?_
      rintro ⟨current, input⟩ more
      replace reads := reads.again more
      dsimp only at reads ⊢
      split
      case isTrue =>
          refine (meets_of_noPanic ((meets_nameInBraces _ name).and fun _ => id)).weaken ?_
          rintro result ⟨⟨started, _, _, isNext⟩, isName⟩
          rcases isNext with rfl | closes
          · exact goes_some (.nameInBraces reads isName)
          · rcases started.meets_closeLabels.value closes with ⟨_, _, _, _, _, rfl⟩
            exact goes_some (.nameInBraces reads isName)
      case isFalse isEquals =>
          have isEquals : current = equalsSign := by simpa using isEquals
          subst isEquals
          refine (meets_of_noPanic (meets_ensure _ _)).bind fun _ notReserved => ?_
          refine (meets_of_noPanic (meets_ensure _ _)).bind fun _ valid => ?_
          refine (meets_of_noPanic (meets_ensure _ _)).bind fun _ notDuplicate => ?_
          refine goes_some (.labelName reads (by simpa using name_ne_nil)
            (by simpa using notReserved) valid ?_)
          intro isOfMetric label labelMem
          simp only [Bool.not_eq_eq_eq_not, Bool.not_true, Bool.and_eq_false_imp,
            List.any_eq_false, beq_iff_eq] at notDuplicate
          exact notDuplicate isOfMetric label labelMem

theorem meets_startLabelValue :
    Meets (PanicsIf (p.currentMetric = none ∨ ofLines p.getType = true ∧ p.currentLabels = none))
      (p.Goes .startLabelValue) p.startLabelValue := by
  unfold startLabelValue
  refine (meets_of_noPanic (meets_skipBlankTab p.input)).bind ?_
  rintro ⟨current, input⟩ ⟨reads, _⟩
  refine (meets_of_noPanic (meets_ensure _ _)).bind fun _ isQuote => ?_
  have isQuote : current = quote := by simpa using isQuote
  subst isQuote
  refine (meets_of_noPanic (meets_readTokenAsLabelValue false input)).bind ?_
  rintro ⟨value, input⟩ more
  have notNewline : quote ≠ newline := by decide
  replace reads := Reads.trans notNewline reads more
  refine (meets_of_noPanic (meets_ensure _ _)).bind fun _ valid => ?_
  refine (((p.meets_setLabel value).and fun _ => id).mono (PanicsIf.mono Or.inr)
    fun _ => id).bind ?_
  rintro labelled ⟨⟨pairs, labels, quantile, bucket, _, shape⟩, sets⟩
  have sameMetric : labelled.currentMetric = p.currentMetric := by rw [shape]
  refine (meets_of_noPanic (meets_skipBlankTab input)).bind ?_
  rintro ⟨current, input⟩ ⟨more, _⟩
  replace reads := reads.trans (by decide) more
  dsimp only at reads ⊢
  split
  case isTrue isComma =>
      rw [beq_iff_eq] at isComma
      subst isComma
      exact goes_some (.labelValue valid sets reads)
  case isFalse =>
      split
      case isTrue closing =>
          rw [beq_iff_eq] at closing
          subst closing
          refine (meets_of_noPanic (meets_ensure _ _)).bind fun _ _ => ?_
          refine ((meets_closeLabels _).and fun _ => id).mono ?_ ?_
          · exact PanicsIf.mono fun missing => Or.inl (sameMetric.symm.trans missing)
          · rintro _ ⟨⟨_, _, _, _, _, rfl⟩, closes⟩
            exact goes_some (.lastLabelValue valid sets reads closes)
      case isFalse => exact panicsIf_parseError _ _

theorem meets_readingValue :
    Meets (PanicsIf (p.currentMetric = none ∨ p.currentMF = none)) (p.Goes .readingValue)
      p.readingValue := by
  unfold readingValue
  refine (p.meets_placeMetric.and fun _ => id).bind fun placed placing => ?_
  rcases placing with ⟨isPlaced, places⟩
  refine (meets_of_noPanic (meets_readTokenUntilWhitespace _)).bind ?_
  rintro ⟨token, current, input⟩ reads
  rw [isPlaced.unread] at reads
  dsimp only at reads ⊢
  split
  case h_1 => exact panicsIf_parseError _ _
  case h_2 value _ =>
      refine (((meets_setValue _ value).and fun _ => id).mono ?_ fun _ => id).bind ?_
      · intro stop panics isPanic
        have missing : placed.currentMetric = none := panics isPanic
        exact absurd isPlaced.isSome_currentMetric (by simp [missing])
      · rintro q ⟨_, sets⟩
        refine goes_some (.value places reads sets ?_)
        split
        case isTrue ends => exact Or.inl ⟨rfl, eq_of_beq ends⟩
        case isFalse => exact Or.inr rfl

theorem meets_startTimestamp :
    Meets (PanicsIf (p.currentMetric = none)) (p.Goes .startTimestamp) p.startTimestamp := by
  unfold startTimestamp
  refine (meets_of_noPanic (meets_skipBlankTab p.input)).bind ?_
  rintro ⟨current, input⟩ ⟨reads, _⟩
  refine (meets_of_noPanic (meets_readTokenUntilWhitespace _)).bind ?_
  rintro ⟨token, current, input⟩ more
  replace reads := reads.again more
  dsimp only at reads ⊢
  split
  case h_1 => exact panicsIf_parseError _ _
  case h_2 timestamp isTimestamp =>
      refine ((p.meets_updateMetric _).and fun _ => id).bind fun timed sets => ?_
      refine (meets_of_noPanic (meets_readTokenUntilNewline false false _)).bind ?_
      rintro ⟨token, current, input⟩ ⟨more, ends⟩
      replace reads := reads.again more
      refine (meets_of_noPanic (meets_ensure _ _)).bind fun _ _ => ?_
      dsimp only at ends
      subst ends
      exact goes_some (.timestamp (bounds_of_parseInt isTimestamp) sets.2 reads)

theorem meets_readingHelp :
    Meets (PanicsIf (p.currentMF = none)) (p.Goes .readingHelp) p.readingHelp := by
  unfold readingHelp
  refine (meets_of_noPanic (meets_ensure _ _)).bind fun _ _ => ?_
  refine (meets_of_noPanic (meets_readTokenUntilNewline true false _)).bind ?_
  rintro ⟨token, current, input⟩ ⟨reads, ends⟩
  refine ((p.meets_updateMF _).and fun _ => id).bind fun described sets => ?_
  dsimp only at ends
  subst ends
  exact goes_some (.help sets.2 reads)

theorem meets_readingType :
    Meets (PanicsIf (p.currentMF = none)) (p.Goes .readingType) p.readingType := by
  unfold readingType
  refine (meets_of_noPanic (meets_ensure _ _)).bind fun _ missing => ?_
  refine (meets_of_noPanic (meets_readTokenUntilNewline false false _)).bind ?_
  rintro ⟨token, current, input⟩ ⟨reads, ends⟩
  dsimp only at ends ⊢
  subst ends
  split
  case h_1 => exact panicsIf_parseError _ _
  case h_2 metricType _ =>
      refine ((p.meets_updateMF _).and fun _ => id).bind fun described sets => ?_
      exact goes_some (.type (by simpa using missing) sets.2 reads)

/-- Why a state can panic. -/
def PanicCause (p : TextParser) : StateFn → Prop
  | .startLabelName | .startTimestamp => p.currentMetric = none
  | .startLabelValue =>
      p.currentMetric = none ∨ ofLines p.getType = true ∧ p.currentLabels = none
  | .readingValue => p.currentMetric = none ∨ p.currentMF = none
  | .readingHelp | .readingType => p.currentMF = none
  | .startOfLine | .startComment | .readingMetricName | .readingLabels => False

theorem meets_step (state : StateFn) :
    Meets (PanicsIf (p.PanicCause state)) (p.Goes state) (p.step state) := by
  cases state with
  | startOfLine => exact meets_of_noPanic p.meets_startOfLine
  | startComment => exact meets_of_noPanic p.meets_startComment
  | readingMetricName => exact meets_of_noPanic p.meets_readingMetricName
  | readingLabels => exact goes_some .labels
  | startLabelName => exact p.meets_startLabelName
  | startLabelValue => exact p.meets_startLabelValue
  | readingValue => exact p.meets_readingValue
  | startTimestamp => exact p.meets_startTimestamp
  | readingHelp => exact p.meets_readingHelp
  | readingType => exact p.meets_readingType

theorem move_of_moves {state after : StateFn} {q : TextParser}
    (moves : Machine.Moves next (state, p) (after, q)) : p.Move state after q := by
  unfold Machine.Moves next at moves
  split at moves
  case h_1 => cases moves
  case h_2 => cases moves
  case h_3 => cases moves
  case h_4 other r steps =>
      cases moves
      exact ((p.meets_step state).value steps).move after rfl

theorem eq_of_halts {state : StateFn} {q : TextParser}
    (halts : next (state, p) = .ok (.inr q)) : q = p.newLine false := by
  unfold next at halts
  split at halts
  case h_1 => cases halts
  case h_2 => cases halts
  case h_3 r steps =>
      cases halts
      exact ((p.meets_step state).value steps).ends rfl
  case h_4 => cases halts

theorem cause_of_panic {state : StateFn} (panics : next (state, p) = .error .panic) :
    p.PanicCause state := by
  unfold next at panics
  split at panics
  case h_1 steps => exact (p.meets_step state).error steps rfl
  case h_2 => cases panics
  case h_3 => cases panics
  case h_4 => cases panics

/-! ## The end of a run -/

/-- The states that do not read a byte come before others that do. -/
def weight : StateFn → ℕ
  | .readingLabels => 2
  | .readingValue | .readingHelp | .readingType => 1
  | _ => 0

/-- The rest of the input, and the moves until a byte of it is read. -/
def work (state : StateFn × TextParser) : ℕ :=
  3 * state.2.input.length + weight state.1

theorem decreases_of_move {state after : StateFn} {q : TextParser} (move : p.Move state after q) :
    work (after, q) < work (state, p) := by
  have next_line {input : GoString} (reads : Reads (p.currentByte :: p.input) newline input) :
      3 * input.length < 3 * p.input.length + 1 := by
    have shorter := reads.length_lt
    rw [List.length_cons] at shorter
    omega
  have shorter {input rest : GoString} {byte : UInt8} {state after : StateFn}
      (reads : Reads input byte rest) :
      3 * rest.length + weight after < 3 * input.length + weight state := by
    have := reads.length_lt
    have : weight after ≤ 2 := by cases after <;> decide
    omega
  cases move with
  | emptyLine skips | bracedLine skips | commentLine skips | sampleLine skips =>
      exact shorter ((meets_skipBlankTab _).value skips).1
  | comment reads => exact shorter reads
  | emptyDescription finds reads | description finds reads => exact shorter reads
  | metricName starts reads =>
      exact shorter reads
  | labels =>
      have sameInput : p.resetLabels.input = p.input := by
        unfold resetLabels
        split <;> rfl
      simp only [work, sameInput]
      split <;> simp [weight]
  | noMoreLabels reads closes =>
      rcases (meets_closeLabels _).value closes with ⟨_, _, _, _, more, result⟩
      cases result
      exact shorter (reads.trans (by decide) more)
  | nameInBraces reads isName =>
      rcases (meets_nameInBraces _ _).value isName with ⟨started, starts, _, isNext⟩
      have sameInput := input_of_startMetric _ starts
      rcases isNext with isNext | closes
      · cases isNext
        change 3 * started.input.length + _ < _
        rw [sameInput]
        exact shorter reads
      · rcases (meets_closeLabels _).value closes with ⟨_, _, _, _, more, result⟩
        cases result
        rw [sameInput] at more
        exact lt_trans (@shorter _ _ _ .startLabelName _ more) (shorter reads)
  | labelName reads => exact shorter reads
  | labelValue _ sets reads => exact shorter reads
  | lastLabelValue _ sets reads closes =>
      rcases (meets_closeLabels _).value closes with ⟨_, _, _, _, more, result⟩
      cases result
      exact shorter (reads.trans (by decide) more)
  | value places reads sets continues =>
      rcases (meets_setValue _ _).value sets with ⟨_, _, _, _, rfl⟩
      have consumed := reads.length_lt
      rw [List.length_cons] at consumed
      have last : weight after = 0 := by rcases continues with ⟨rfl, _⟩ | rfl <;> rfl
      simp only [work, readTo, last]
      simp only [weight]
      omega
  | timestamp _ sets reads => exact shorter reads
  | help sets reads => exact next_line reads
  | type _ sets reads => exact next_line reads

/-- The parser comes to an end on every input. -/
theorem isSome_textToMetricFamilies (input : GoString) :
    (textToMetricFamilies input).isSome := by
  have ends : (Machine.run next (3 * input.length + 3)
      (StateFn.startOfLine, ({ input } : TextParser))).isSome := by
    refine @Machine.run_isSome _ _ _ _ work ?_ _ _ ?_
    · rintro ⟨state, p⟩ ⟨after, q⟩ moves
      exact decreases_of_move p (move_of_moves p moves)
    · simp [work, weight]
  rw [textToMetricFamilies, Option.isSome_map]
  exact ends

end

end TextParser

end Expfmt

end Promfetcher
