import Promfetcher.Expfmt.Reader

/-!
# From line to line

The text parser on the lines of one family: from the start of a line that has been
written it comes to the start of the next one, and has performed the operation
that the line stands for.
-/

namespace Promfetcher

open Foundation

/-! ## Samples that are read back -/

namespace Sample

open Expfmt

variable [Strconv]

/-- The labels of the line. -/
def items (sample : Sample) : List (GoString × GoString) :=
  sample.metric.label.map (fun label => (label.name.getD [], label.value.getD [])) ++
    (sample.additionalLabel.map fun label => (label.1, writeFloat label.2)).toList

/-- The sample is one of a line of a metric of the type, and nothing of it is lost when it is
written. -/
structure Fits (sample : Sample) (metricType : MetricType) : Prop where
  suffix : sample.suffix = [] ∨ sample.suffix ∈ suffixes metricType
  additional : ∀ label, sample.additionalLabel = some label →
    metricType = .summary ∧ label.1 = quantileLabel ∨
      ofHistogram metricType = true ∧ label.1 = bucketLabel
  labelled : WellLabelled sample.metric.label
  readable : ∀ label ∈ sample.metric.label, ∀ name, label.name = some name →
    (isLegacyName name = true → colon ∉ name) ∧ ofMetric metricType name = true
  timestamp : ∀ timestampMs, sample.metric.timestampMs = some timestampMs →
    -2 ^ 63 ≤ timestampMs ∧ timestampMs < 2 ^ 63
  count : ofHistogram metricType = true → sample.suffix ≠ text "_sum" →
    (TextParser.readCount sample.number).isSome

end Sample

namespace Expfmt

/-! ## The start of a sample -/

namespace TextParser

variable {p : TextParser}

/-- A new metric of a family that has a type. -/
def started (p : TextParser) (name : GoString) (kind : LineKind) (family : DtoFamily ℕ) :
    TextParser :=
  { p.turnTo name kind with
    metricFamiliesByName := p.metricFamiliesByName.insert name family
    currentMetric := some p.metrics.length
    metrics := p.metrics ++ [{}] }

theorem startMetric_eq {full name : GoString} {kind : LineKind} {family : DtoFamily ℕ}
    (full_ne_nil : full ≠ []) (valid : validString full = true)
    (finds : p.findMF full = some (name, kind))
    (held : p.metricFamiliesByName.lookup name = some family) (typed : family.type.isSome) :
    p.startMetric full = .ok (p.started name kind family) := by
  have keepsType : family.type.or (some .untyped) = family.type := by
    cases isType : family.type with
    | none => rw [isType] at typed; cases typed
    | some metricType => rfl
  unfold startMetric setOrCreateCurrentMF
  rw [ensure_eq_ok (by simp [full_ne_nil, valid]), finds]
  simp [bind, Except.bind, pure, Except.pure, updateMF, turnTo, TextParser.family, held, keepsType,
    started]

theorem store_started {name : GoString} (kind : LineKind) {family : DtoFamily ℕ}
    (held : p.metricFamiliesByName.lookup name = some family) :
    (p.started name kind family).store = p.store.allocate := by
  have sameFamilies : (fun other => (p.metricFamiliesByName.insert name family).lookup other) =
      fun other => p.metricFamiliesByName.lookup other := by
    rw [lookup_insert_eq, Function.update_eq_self_iff]
    exact held.symm
  unfold started turnTo store Store.allocate
  dsimp only
  rw [sameFamilies]

end TextParser

/-- The line of a sample, when its metric has been started. -/
def startOfSample (store : Store) (metricType : MetricType) (sample : Sample) : LineState where
  store := store.allocate
  name := sample.name
  metricType := metricType
  kind := lineKind metricType sample.suffix
  position := store.metrics.length
  collected := []
  limit := .nan

namespace TextParser

variable {p : TextParser} {sample : Sample} {metricType : MetricType} {family : DtoFamily ℕ}

theorem ofLines_cases (metricType : MetricType) :
    (metricType = .summary → ofLines metricType = true) ∧
      (ofHistogram metricType = true → ofLines metricType = true) := by
  cases metricType <;> decide

theorem not_of_single (single : ofLines metricType = false) :
    ofLines metricType ≠ true ∧ metricType ≠ .summary ∧ ofHistogram metricType ≠ true := by
  cases metricType <;> first | decide | cases single

theorem within_resetLabels (held : p.metricFamiliesByName.lookup sample.name = some family)
    (typed : family.type = some metricType) (current : UInt8) (input : GoString) :
    ((p.started sample.name (lineKind metricType sample.suffix) family).readTo
      current input).resetLabels.Within (startOfSample p.store metricType sample) := by
  have isFamily : p.store.families sample.name = some family := held
  have isType : ((p.started sample.name (lineKind metricType sample.suffix) family).readTo
      current input).getType = metricType := by
    simp [getType, TextParser.family, started, turnTo, TextParser.readTo, typed]
  have isStore := store_started (lineKind metricType sample.suffix) held
  unfold resetLabels
  rw [isType]
  cases isOfLines : ofLines metricType with
  | false =>
      rcases not_of_single isOfLines with ⟨notOfLines, notSummary, notHistogram⟩
      exact ⟨isStore, ⟨family, isFamily, typed⟩, rfl, rfl, rfl, rfl, rfl, rfl,
        fun ofLines => absurd ofLines notOfLines, fun isSummary => absurd isSummary notSummary,
        fun isHistogram => absurd isHistogram notHistogram⟩
  | true =>
      exact ⟨isStore, ⟨family, isFamily, typed⟩, rfl, rfl, rfl, rfl, rfl, rfl, fun _ => rfl,
        fun _ => rfl, fun _ => rfl⟩

theorem within_started (held : p.metricFamiliesByName.lookup sample.name = some family)
    (typed : family.type = some metricType) (isCurrentMF : p.currentMF = some sample.name) :
    (p.resetLabels.started sample.name (lineKind metricType sample.suffix) family).Within
      (startOfSample p.store metricType sample) := by
  have isFamily : p.store.families sample.name = some family := held
  have isType : p.getType = metricType := by
    simp [getType, TextParser.family, isCurrentMF, held, typed]
  unfold resetLabels
  rw [isType, isCurrentMF]
  cases isOfLines : ofLines metricType with
  | false =>
      rcases not_of_single isOfLines with ⟨notOfLines, notSummary, notHistogram⟩
      exact ⟨store_started _ held, ⟨family, isFamily, typed⟩, rfl, rfl, rfl, rfl, rfl, rfl,
        fun ofLines => absurd ofLines notOfLines, fun isSummary => absurd isSummary notSummary,
        fun isHistogram => absurd isHistogram notHistogram⟩
  | true =>
      exact ⟨store_started (p := { p with
        currentLabels := some (AList.singleton metricNameLabel sample.name)
        currentQuantile := .nan
        currentBucket := .nan }) _ held, ⟨family, isFamily, typed⟩, rfl, rfl, rfl, rfl, rfl, rfl,
        fun _ => rfl, fun _ => rfl, fun _ => rfl⟩

end TextParser

/-! ## The labels of a sample -/

/-- The state of the line once more labels of the metric have been read. -/
def LineState.collect (line : LineState) (labels : List LabelPair) : LineState :=
  { line with collected := line.collected ++ labels }

theorem collect_cons (line : LineState) (label : LabelPair) (labels : List LabelPair) :
    line.collect (label :: labels) = (line.collect [label]).collect labels := by
  simp [LineState.collect]

theorem validString_of_ascii {string : GoString} (ascii : ∀ byte ∈ string, byte < 0x80) :
    validString string = true := by
  induction string with
  | nil => rfl
  | cons first string inductionHypothesis =>
      rw [List.forall_mem_cons] at ascii
      have behind := validString_append_rune (isRune_singleton ascii.1) string
      exact behind.trans (inductionHypothesis ascii.2)

theorem escapedString_of_plain {includeDoubleQuote : Bool} {string : GoString}
    (plain : ∀ byte ∈ string, byte ≠ backslash ∧ byte ≠ newline ∧ byte ≠ quote) :
    escapedString includeDoubleQuote string = string := by
  induction string with
  | nil => rfl
  | cons first string inductionHypothesis =>
      rw [List.forall_mem_cons] at plain
      have asIs : escapeByte includeDoubleQuote first = [first] := by
        simp [escapeByte, plain.1.1, plain.1.2.1, plain.1.2.2]
      rw [escapedString, List.flatMap_cons, asIs, ← escapedString, inductionHypothesis plain.2]
      rfl

section

variable [Strconv]

theorem writeAdditionalLabel_eq {label : GoString × Float64}
    (isLimit : label.1 = quantileLabel ∨ label.1 = bucketLabel) :
    writeAdditionalLabel label = writeLabel label.1 (writeFloat label.2) := by
  have written : writeName label.1 = label.1 := by
    rcases isLimit with isLimit | isLimit <;> rw [isLimit] <;> decide
  have plain : escapedString true (writeFloat label.2) = writeFloat label.2 := by
    refine escapedString_of_plain fun byte byteMem => ?_
    rcases numberByte (contains_writeFloat _ byte byteMem) with
      ⟨notNewline, _, notQuote, notBackslash, _⟩
    exact ⟨notBackslash, notNewline, notQuote⟩
  rw [writeLabel, written, plain]
  rfl

theorem writeItems_items {sample : Sample} {metricType : MetricType}
    (fits : sample.Fits metricType) :
    [comma].intercalate (sample.metric.label.map (fun label =>
        writeLabel (label.name.getD []) (label.value.getD [])) ++
      (sample.additionalLabel.map writeAdditionalLabel).toList) = writeItems sample.items := by
  unfold writeItems Sample.items
  congr 1
  rw [List.map_append, List.map_map]
  congr 1
  cases isAdditional : sample.additionalLabel with
  | none => rfl
  | some label =>
      have isLimit : label.1 = quantileLabel ∨ label.1 = bucketLabel :=
        (fits.additional label isAdditional).imp And.right And.right
      simp [writeAdditionalLabel_eq isLimit]

/-- What is written of the name and the labels of a sample. -/
theorem writeNameAndLabelPairs_eq {sample : Sample} {metricType : MetricType}
    (fits : sample.Fits metricType) {full : GoString} (full_ne_nil : full ≠ []) :
    writeNameAndLabelPairs full sample.metric.label sample.additionalLabel =
      if isLegacyName full then
        writeName full ++ if sample.items = [] then []
          else openBrace :: writeItems sample.items ++ [closeBrace]
      else
        openBrace :: writeName full ++ (if sample.items = [] then []
          else comma :: writeItems sample.items) ++ [closeBrace] := by
  have noItems : sample.metric.label.map (fun label =>
        writeLabel (label.name.getD []) (label.value.getD [])) ++
      (sample.additionalLabel.map writeAdditionalLabel).toList = [] ↔ sample.items = [] := by
    simp [Sample.items]
  unfold writeNameAndLabelPairs
  dsimp only
  rw [writeItems_items fits]
  cases isLegacy : isLegacyName full <;>
    by_cases isEmpty : sample.items = [] <;> simp [full_ne_nil, isEmpty, noItems]

/-- The label, as it is written. -/
def itemOf (label : LabelPair) : GoString × GoString :=
  (label.name.getD [], label.value.getD [])

theorem label_itemOf {line : LineState} {label : LabelPair} {name value : GoString}
    (isLabel : label = ⟨some name, some value⟩)
    (isOfMetric : ofMetric line.metricType name = true) :
    line.label (itemOf label) = line.collect [label] := by
  subst isLabel
  exact if_pos isOfMetric

/-- All labels of a metric are read, and collected in their order. -/
theorem readable_labels {line : LineState} {labels : List LabelPair}
    {items : List (GoString × GoString)}
    (labelled : WellLabelled (line.collected ++ labels))
    (readable : ∀ label ∈ labels, ∀ name, label.name = some name →
      (isLegacyName name = true → colon ∉ name) ∧ ofMetric line.metricType name = true)
    (behind : (line.collect labels).AllReadable items) :
    line.AllReadable (labels.map itemOf ++ items) ∧
      (labels.map itemOf).foldl LineState.label line = line.collect labels := by
  induction labels generalizing line with
  | nil =>
      have same : line.collect [] = line := by simp [LineState.collect]
      rw [same] at behind ⊢
      exact ⟨behind, rfl⟩
  | cons label labels inductionHypothesis =>
      rw [List.forall_mem_cons] at readable
      rcases labelled.valid label (List.mem_append_right _ List.mem_cons_self) with
        ⟨name, value, isLabel, name_ne_nil, notReserved, validName, validValue⟩
      rcases readable.1 name (by rw [isLabel]) with ⟨noColon, isOfMetric⟩
      have step := label_itemOf isLabel isOfMetric
      rw [List.append_cons] at labelled
      rw [collect_cons] at behind ⊢
      rcases @inductionHypothesis (line.collect [label]) labelled readable.2 behind with
        ⟨allReadable, collects⟩
      refine ⟨⟨?_, step ▸ allReadable⟩, ?_⟩
      · have isItem : itemOf label = (name, value) := by rw [isLabel]; rfl
        rw [isItem]
        refine ⟨name_ne_nil, noColon, notReserved, validName, validValue, fun _ => ?_, ?_⟩
        · intro other otherMem same
          have distinct := labelled.nodup
          rw [List.map_append, List.map_append, List.append_assoc, List.nodup_append] at distinct
          refine distinct.2.2 other.name (List.mem_map_of_mem otherMem) label.name (by simp) ?_
          rw [same, isLabel]
        · exact fun ofLine => absurd (isOfMetric.symm.trans ofLine) (by decide)
      · rw [List.map_cons, List.foldl_cons, step, collects]

/-- What has been read of a sample behind its labels. -/
def endOfLabels (store : Store) (metricType : MetricType) (sample : Sample) : LineState :=
  { startOfSample store metricType sample with
    collected := sample.metric.label
    limit := sample.limit }

theorem readable_items {sample : Sample} {metricType : MetricType}
    (fits : sample.Fits metricType) (store : Store) :
    (startOfSample store metricType sample).AllReadable sample.items ∧
      sample.items.foldl LineState.label (startOfSample store metricType sample) =
        endOfLabels store metricType sample := by
  have labels (items : List (GoString × GoString)) :=
    @readable_labels _ (startOfSample store metricType sample) _ items fits.labelled fits.readable
  have isItems : sample.items = sample.metric.label.map itemOf ++
      (sample.additionalLabel.map fun label => (label.1, writeFloat label.2)).toList := rfl
  rw [isItems, List.foldl_append]
  cases isAdditional : sample.additionalLabel with
  | none =>
      have limit : sample.limit = .nan := by
        rw [Sample.limit, isAdditional]
        rfl
      rcases labels [] trivial with ⟨allReadable, collects⟩
      refine ⟨allReadable, ?_⟩
      rw [collects, endOfLabels, limit]
      rfl
  | some label =>
      have limit : sample.limit = rereadFloat label.2 := by
        rw [Sample.limit, isAdditional]
        rfl
      have parsed := parseFloat_writeFloat label.2
      have ofLine : ofMetric metricType label.1 = false := by
        rcases fits.additional label isAdditional with ⟨rfl, isLimit⟩ | ⟨isHistogram, isLimit⟩
        · rw [isLimit]
          decide
        · rw [isLimit]
          simp [ofMetric, isHistogram]
      have isReadable : ((startOfSample store metricType sample).collect
          sample.metric.label).Readable (label.1, writeFloat label.2) := by
        have isName : label.1 ∈ [quantileLabel, bucketLabel] := by
          rcases fits.additional label isAdditional with ⟨_, isLimit⟩ | ⟨_, isLimit⟩ <;>
            simp [isLimit]
        have names : ∀ name ∈ [quantileLabel, bucketLabel], name ≠ [] ∧ colon ∉ name ∧
            name ≠ metricNameLabel ∧ validString name = true := by decide
        rcases names label.1 isName with ⟨name_ne_nil, noColon, notReserved, validName⟩
        refine ⟨name_ne_nil, fun _ => noColon, notReserved, validName,
          validString_of_ascii ?_, fun isOfMetric => ?_, fun _ => by rw [parsed]; rfl⟩
        · intro byte byteMem
          exact (numberByte (contains_writeFloat _ byte byteMem)).2.2.2.2.1
        · exact absurd (ofLine.symm.trans isOfMetric) (by decide)
      rcases labels [(label.1, writeFloat label.2)] ⟨isReadable, trivial⟩ with
        ⟨allReadable, collects⟩
      refine ⟨allReadable, ?_⟩
      rw [collects, endOfLabels, limit]
      simp [LineState.label, LineState.collect, startOfSample, ofLine, parsed]

end

/-! ## From the start of a sample to its value -/

namespace TextParser

variable {p : TextParser}

theorem startLabelName_quoted {full : GoString} {byte : UInt8} {rest : GoString}
    (notLegacy : isLegacyName full = false) (full_ne_nil : full ≠ [])
    (isInput : p.input = writeName full ++ byte :: rest) (notBlank : isBlankOrTab byte = false)
    (noValue : byte ≠ equalsSign) :
    p.startLabelName = (p.readTo byte rest).nameInBraces full := by
  have written : writeName full = quoted full := if_neg (by simp [notLegacy])
  have reads : readTokenAsLabelName (quoted full ++ byte :: rest) = .ok (full, byte, rest) := by
    rw [quoted, List.cons_append, List.cons_append, readTokenAsLabelName, if_pos (by decide)]
    exact readName_quoted (by simp [isValidLabelNameContinuation]) full byte rest
  rw [written, quoted, List.cons_append, List.cons_append] at isInput
  rw [quoted, List.cons_append, List.cons_append] at reads
  unfold startLabelName
  rw [isInput, skipBlankTab_cons (by decide)]
  dsimp only [bind, Except.bind]
  rw [if_neg (by decide), reads]
  dsimp only
  rw [ensure_eq_ok (by simpa using full_ne_nil), skipBlankTabIfCurrentBlankTab,
    if_neg (by simp [notBlank])]
  dsimp only
  rw [if_pos (by simpa using noValue)]

theorem nameInBraces_comma {full : GoString} {started : TextParser}
    (inside : p.currentMetricIsInsideBraces = true)
    (notPresent : p.currentMetricInsideBracesIsPresent = false) (isByte : p.currentByte = comma)
    (starts : p.startMetric full = .ok started) :
    p.nameInBraces full =
      .ok (some .startLabelName, { started with currentMetricInsideBracesIsPresent := true }) := by
  unfold nameInBraces
  rw [ensure_eq_ok inside, ensure_eq_ok (by rw [notPresent]; rfl), isByte, starts]
  rfl

theorem nameInBraces_closeBrace {full : GoString} {started : TextParser}
    (inside : p.currentMetricIsInsideBraces = true)
    (notPresent : p.currentMetricInsideBracesIsPresent = false)
    (isByte : p.currentByte = closeBrace) (starts : p.startMetric full = .ok started) :
    p.nameInBraces full = started.closeLabels := by
  unfold nameInBraces
  rw [ensure_eq_ok inside, ensure_eq_ok (by rw [notPresent]; rfl), isByte, starts]
  rfl

theorem attach_of_collected_eq_nil {line : LineState} (isEmpty : line.collected = []) :
    line.attach = line := by
  have same : (fun metric : DtoMetric => { metric with label := metric.label ++ line.collected }) =
      id := by
    funext metric
    rw [isEmpty, List.append_nil]
    rfl
  unfold LineState.attach Store.modify
  rw [same, List.modify_id]

variable [Strconv] {sample : Sample} {metricType : MetricType}

theorem endOfLabels_of_items_eq_nil (fits : sample.Fits metricType) (store : Store)
    (noItems : sample.items = []) :
    (endOfLabels store metricType sample).attach = startOfSample store metricType sample := by
  have collects := (readable_items fits store).2
  rw [noItems, List.foldl_nil] at collects
  rw [← collects]
  exact attach_of_collected_eq_nil rfl

theorem Fits.suffix_valid (fits : sample.Fits metricType) : validString sample.suffix = true := by
  have literals : ∀ suffix ∈ [] :: suffixes metricType, validString suffix = true := by
    unfold suffixes
    split_ifs <;> decide
  rcases fits.suffix with isEmpty | isSuffix
  · exact literals _ (isEmpty ▸ List.mem_cons_self)
  · exact literals _ (List.mem_cons_of_mem _ isSuffix)

/-- The metric of the sample is started. -/
theorem startMetric_of_fits (fits : sample.Fits metricType)
    (current : p.store.Current sample.name metricType) :
    ∃ family, p.metricFamiliesByName.lookup sample.name = some family ∧
      family.type = some metricType ∧
      p.startMetric (sample.name ++ sample.suffix) =
        .ok (p.started sample.name (lineKind metricType sample.suffix) family) := by
  rcases current.held with ⟨family, held, typed⟩
  refine ⟨family, held, typed, startMetric_eq ?_ ?_ (findMF_append current fits.suffix) held ?_⟩
  · exact List.append_ne_nil_of_left_ne_nil current.name_ne_nil _
  · rw [validString_append current.valid, Fits.suffix_valid fits]
  · rw [typed]
    rfl

omit [Strconv] in
theorem resetLabels_frame (p : TextParser) :
    p.resetLabels.currentLabelPairs = p.currentLabelPairs ∧
      p.resetLabels.currentByte = p.currentByte ∧ p.resetLabels.input = p.input ∧
      p.resetLabels.currentMetricIsInsideBraces = p.currentMetricIsInsideBraces ∧
      p.resetLabels.currentMetricInsideBracesIsPresent =
        p.currentMetricInsideBracesIsPresent ∧ p.resetLabels.store = p.store := by
  unfold resetLabels
  split <;> exact ⟨rfl, rfl, rfl, rfl, rfl, rfl⟩

/-- A line that starts with the name of the metric. -/
theorem reaches_labels (fits : sample.Fits metricType)
    (current : p.store.Current sample.name metricType) {byte after : UInt8}
    {rest input : GoString} (ends : byte = openBrace ∨ byte = 0x20)
    (skips : skipBlankTabIfCurrentBlankTab byte rest = .ok (after, input))
    (isInput : p.input = writeName (sample.name ++ sample.suffix) ++ byte :: rest) :
    ∃ q, Machine.Reaches next (.startOfLine, p)
        (if after == openBrace then .startLabelName else .readingValue, q) ∧
      q.Within (startOfSample p.store metricType sample) ∧
      q.currentLabelPairs = p.currentLabelPairs ∧ q.currentByte = after ∧ q.input = input := by
  have full_ne_nil : sample.name ++ sample.suffix ≠ [] :=
    List.append_ne_nil_of_left_ne_nil current.name_ne_nil _
  rcases writeName_eq_cons (sample.name ++ sample.suffix) with
    ⟨first, tail, written, notBlank, notNewline, notHash, notOpen, _⟩
  have isName : first :: (tail ++ byte :: rest) =
      writeName (sample.name ++ sample.suffix) ++ byte :: rest := by rw [written]; rfl
  have newLine := startOfLine_cons (isInput.trans isName.symm) notBlank
  rw [if_neg notHash, if_neg notNewline, if_neg notOpen, beq_false_of_ne notOpen] at newLine
  rcases startMetric_of_fits (p := (p.newLine false).readTo first (tail ++ byte :: rest)) fits
    current with ⟨family, held, typed, starts⟩
  have named := readingMetricName_writeName full_ne_nil isName ends starts skips
  refine ⟨_, (reaches_of_step .startOfLine newLine).trans
    ((reaches_of_step .readingMetricName named).trans (reaches_of_step .readingLabels rfl)),
    within_resetLabels held typed after input, ?_⟩
  rcases resetLabels_frame ((((p.newLine false).readTo first (tail ++ byte :: rest)).started
    sample.name (lineKind metricType sample.suffix) family).readTo after input) with
    ⟨pairs, isByte, isRest, _⟩
  exact ⟨pairs, isByte, isRest⟩

theorem reaches_readingValue_legacy (fits : sample.Fits metricType)
    (current : p.store.Current sample.name metricType) (pairs : p.currentLabelPairs = [])
    (isLegacy : isLegacyName (sample.name ++ sample.suffix) = true) {byte : UInt8}
    {rest : GoString} (notBlank : isBlankOrTab byte = false) (notBrace : byte ≠ openBrace)
    (isInput : p.input = writeNameAndLabelPairs (sample.name ++ sample.suffix)
      sample.metric.label sample.additionalLabel ++ 0x20 :: byte :: rest) :
    ∃ q, Machine.Reaches next (.startOfLine, p) (.readingValue, q) ∧
      q.Within (endOfLabels p.store metricType sample).attach ∧ q.currentLabelPairs = [] ∧
      q.currentByte = byte ∧ q.input = rest := by
  have full_ne_nil : sample.name ++ sample.suffix ≠ [] :=
    List.append_ne_nil_of_left_ne_nil current.name_ne_nil _
  rw [writeNameAndLabelPairs_eq fits full_ne_nil, if_pos isLegacy, List.append_assoc] at isInput
  by_cases noItems : sample.items = []
  · rw [if_pos noItems, List.nil_append] at isInput
    have skips : skipBlankTabIfCurrentBlankTab 0x20 (byte :: rest) = .ok (byte, rest) :=
      skipBlankTab_cons notBlank rest
    rcases reaches_labels fits current (Or.inr rfl) skips isInput with
      ⟨q, reaches, within, samePairs, isByte, isRest⟩
    rw [beq_false_of_ne notBrace] at reaches
    rw [endOfLabels_of_items_eq_nil fits p.store noItems]
    exact ⟨q, reaches, within, samePairs.trans pairs, isByte, isRest⟩
  · rw [if_neg noItems, List.cons_append, List.cons_append, List.append_assoc] at isInput
    rcases reaches_labels fits current (Or.inl rfl) rfl isInput with
      ⟨q, reaches, within, samePairs, isByte, isRest⟩
    rcases readable_items fits p.store with ⟨readable, collects⟩
    rcases reaches_items noItems within (samePairs.trans pairs) readable notBlank isRest with
      ⟨last, more, lastWithin, rest⟩
    rw [collects] at lastWithin
    exact ⟨last, reaches.trans more, lastWithin, rest⟩

/-- A line that starts with a brace, and with the name of the metric behind it. -/
theorem reaches_nameInBraces (fits : sample.Fits metricType)
    (current : p.store.Current sample.name metricType)
    (isCurrentMF : p.currentMF = some sample.name)
    (notLegacy : isLegacyName (sample.name ++ sample.suffix) = false) {byte : UInt8}
    {rest : GoString} (ends : byte = comma ∨ byte = closeBrace)
    (isInput : p.input =
      openBrace :: (writeName (sample.name ++ sample.suffix) ++ byte :: rest)) :
    ∃ started braced, Machine.Reaches next (.startOfLine, p) (.startLabelName, braced) ∧
      braced.startLabelName = (braced.readTo byte rest).nameInBraces
        (sample.name ++ sample.suffix) ∧
      (braced.readTo byte rest).currentMetricIsInsideBraces = true ∧
      (braced.readTo byte rest).currentMetricInsideBracesIsPresent = false ∧
      (braced.readTo byte rest).startMetric (sample.name ++ sample.suffix) = .ok started ∧
      started.Within (startOfSample p.store metricType sample) ∧
      started.currentLabelPairs = p.currentLabelPairs ∧ started.input = rest := by
  have full_ne_nil : sample.name ++ sample.suffix ≠ [] :=
    List.append_ne_nil_of_left_ne_nil current.name_ne_nil _
  have full_valid : validString (sample.name ++ sample.suffix) = true := by
    rw [validString_append current.valid, Fits.suffix_valid fits]
  have newLine := startOfLine_cons isInput (by decide)
  rw [if_neg (by decide), if_neg (by decide), if_pos rfl, beq_self_eq_true] at newLine
  rcases resetLabels_frame ((p.newLine true).readTo openBrace
    (writeName (sample.name ++ sample.suffix) ++ byte :: rest)) with
    ⟨pairs, _, isRest, inside, notPresent, sameStore⟩
  rcases current.held with ⟨family, held, typed⟩
  have within := within_started (p := (p.newLine true).readTo openBrace
    (writeName (sample.name ++ sample.suffix) ++ byte :: rest)) held typed isCurrentMF
  have stillHeld := congrFun (congrArg Store.families sameStore) sample.name
  have stillCurrent : Store.Current (store (TextParser.readTo _ byte rest)) sample.name
    metricType := sameStore.symm ▸ current
  refine ⟨_, _, (reaches_of_step .startOfLine newLine).trans (reaches_of_step .readingLabels rfl),
    startLabelName_quoted notLegacy full_ne_nil isRest ?_ ?_, inside, notPresent,
    startMetric_eq full_ne_nil full_valid (findMF_append stillCurrent fits.suffix)
      (stillHeld.trans held) (Option.isSome_of_eq_some typed), within.readTo byte rest, pairs, rfl⟩
  · rcases ends with rfl | rfl <;> decide
  · rcases ends with rfl | rfl <;> decide

theorem reaches_readingValue_quoted (fits : sample.Fits metricType)
    (current : p.store.Current sample.name metricType) (pairs : p.currentLabelPairs = [])
    (isCurrentMF : p.currentMF = some sample.name)
    (notLegacy : isLegacyName (sample.name ++ sample.suffix) = false) {byte : UInt8}
    {rest : GoString} (notBlank : isBlankOrTab byte = false)
    (isInput : p.input = writeNameAndLabelPairs (sample.name ++ sample.suffix)
      sample.metric.label sample.additionalLabel ++ 0x20 :: byte :: rest) :
    ∃ q, Machine.Reaches next (.startOfLine, p) (.readingValue, q) ∧
      q.Within (endOfLabels p.store metricType sample).attach ∧ q.currentLabelPairs = [] ∧
      q.currentByte = byte ∧ q.input = rest := by
  have full_ne_nil : sample.name ++ sample.suffix ≠ [] :=
    List.append_ne_nil_of_left_ne_nil current.name_ne_nil _
  rw [writeNameAndLabelPairs_eq fits full_ne_nil, notLegacy, if_neg Bool.false_ne_true] at isInput
  rcases readable_items fits p.store with ⟨readable, collects⟩
  by_cases noItems : sample.items = []
  · rw [if_pos noItems] at isInput
    simp only [List.append_nil, List.cons_append, List.append_assoc, List.nil_append] at isInput
    rcases reaches_nameInBraces fits current isCurrentMF notLegacy (Or.inr rfl) isInput with
      ⟨started, braced, reaches, isName, inside, notPresent, starts, within, samePairs, isRest⟩
    rcases within.closeLabels (samePairs.trans pairs) isRest notBlank with
      ⟨q, closes, closed, rest⟩
    rw [nameInBraces_closeBrace inside notPresent rfl starts, closes] at isName
    rw [noItems, List.foldl_nil] at collects
    rw [← collects]
    exact ⟨q, reaches.trans (reaches_of_step .startLabelName isName), closed, rest⟩
  · rw [if_neg noItems] at isInput
    simp only [List.cons_append, List.append_assoc, List.nil_append] at isInput
    rcases reaches_nameInBraces fits current isCurrentMF notLegacy (Or.inl rfl) isInput with
      ⟨started, braced, reaches, isName, inside, notPresent, starts, within, samePairs, isRest⟩
    rw [nameInBraces_comma inside notPresent rfl starts] at isName
    have presentWithin : TextParser.Within
        { started with currentMetricInsideBracesIsPresent := true }
        (startOfSample p.store metricType sample) :=
      ⟨within.store, within.held, within.currentMF, within.currentMetric, within.summaryCount,
        within.summarySum, within.histogramCount, within.histogramSum, within.labels,
        within.quantile, within.bucket⟩
    rcases reaches_items noItems presentWithin (samePairs.trans pairs) readable notBlank isRest with
      ⟨last, more, lastWithin, rest⟩
    rw [collects] at lastWithin
    exact ⟨last, reaches.trans ((reaches_of_step .startLabelName isName).trans more), lastWithin,
      rest⟩

end TextParser

end Expfmt

end Promfetcher
