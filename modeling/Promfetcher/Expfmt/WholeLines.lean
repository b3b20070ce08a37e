import Promfetcher.Expfmt.Lines

/-!
# Whole lines

The value and the timestamp of a sample, the descriptions of a family, and with
them each line as a whole: on a line that has been written, the text parser
performs the operation that the line stands for.
-/

namespace Promfetcher

open Foundation

namespace Expfmt

/-! ## The metric of a line -/

namespace LineState

/-- The metric of the line is an earlier one with its labels, or the new one. -/
def place (line : LineState) : LineState :=
  match line.store.found line.metricType (signature line.name line.collected) with
  | some position => { line with position := position }
  | none => { line with
      store := (line.store.file line.metricType (signature line.name line.collected)
        line.position).list line.name line.position }

end LineState

section

variable {p : TextParser}

theorem placeMetric_oldSummary {position : ℕ} (isSummary : p.getType = .summary)
    (found : p.summaries.lookup (labelsToSignature (p.currentLabels.getD ∅)) = some position) :
    p.placeMetric = .ok { p with currentMetric := some position } := by
  unfold TextParser.placeMetric
  dsimp only
  rw [if_pos isSummary, found]

theorem placeMetric_newSummary {position : ℕ} (isSummary : p.getType = .summary)
    (missing : p.summaries.lookup (labelsToSignature (p.currentLabels.getD ∅)) = none)
    (isCurrent : p.currentMetric = some position) :
    p.placeMetric = TextParser.appendMetric { p with
      summaries := p.summaries.insert (labelsToSignature (p.currentLabels.getD ∅)) position } := by
  unfold TextParser.placeMetric
  dsimp only
  rw [if_pos isSummary, missing]
  split
  case h_1 found => cases found
  case h_2 same =>
      cases isCurrent.symm.trans same
      rfl
  case h_3 noCurrent => cases isCurrent.symm.trans noCurrent

theorem ne_summary_of_ofHistogram {metricType : MetricType}
    (isHistogram : ofHistogram metricType = true) : metricType ≠ .summary := by
  rintro rfl
  cases isHistogram

theorem placeMetric_oldHistogram {position : ℕ} (isHistogram : ofHistogram p.getType = true)
    (found : p.histograms.lookup (labelsToSignature (p.currentLabels.getD ∅)) = some position) :
    p.placeMetric = .ok { p with currentMetric := some position } := by
  unfold TextParser.placeMetric
  dsimp only
  rw [if_neg (ne_summary_of_ofHistogram isHistogram), if_pos isHistogram, found]

theorem placeMetric_newHistogram {position : ℕ} (isHistogram : ofHistogram p.getType = true)
    (missing : p.histograms.lookup (labelsToSignature (p.currentLabels.getD ∅)) = none)
    (isCurrent : p.currentMetric = some position) :
    p.placeMetric = TextParser.appendMetric { p with
      histograms :=
        p.histograms.insert (labelsToSignature (p.currentLabels.getD ∅)) position } := by
  unfold TextParser.placeMetric
  dsimp only
  rw [if_neg (ne_summary_of_ofHistogram isHistogram), if_pos isHistogram, missing]
  split
  case h_1 found => cases found
  case h_2 same =>
      cases isCurrent.symm.trans same
      rfl
  case h_3 noCurrent => cases isCurrent.symm.trans noCurrent

theorem placeMetric_single (notSummary : p.getType ≠ .summary)
    (notHistogram : ¬ofHistogram p.getType = true) : p.placeMetric = p.appendMetric := by
  unfold TextParser.placeMetric
  dsimp only
  rw [if_neg notSummary, if_neg notHistogram]

end

namespace TextParser.Within

variable {p : TextParser} {line : LineState}

theorem family_eq (within : p.Within line) :
    p.family.getD {} = line.store.family line.name := by
  unfold TextParser.family Store.family
  rw [within.currentMF, ← within.store]
  rfl

theorem appendMetric (within : p.Within line) :
    p.appendMetric = .ok { p with
      metricFamiliesByName := p.metricFamiliesByName.insert line.name
        { line.store.family line.name with
          metric := (line.store.family line.name).metric ++ [line.position] } } := by
  unfold TextParser.appendMetric updateMF
  rw [within.currentMetric, within.currentMF]
  dsimp only
  rw [within.family_eq]

theorem list (within : p.Within line) :
    TextParser.Within { p with
      metricFamiliesByName := p.metricFamiliesByName.insert line.name
        { line.store.family line.name with
          metric := (line.store.family line.name).metric ++ [line.position] } }
      { line with store := line.store.list line.name line.position } := by
  refine ⟨?_, ?_, within.currentMF, within.currentMetric, within.summaryCount, within.summarySum,
    within.histogramCount, within.histogramSum, within.labels, within.quantile, within.bucket⟩
  · rw [store_insert, within.store]
    rfl
  · rcases within.held with ⟨family, held, typed⟩
    refine ⟨_, Function.update_self _ _ _, ?_⟩
    dsimp only
    rw [Store.family, held]
    exact typed

theorem summaries (within : p.Within line) (sign : UInt64) :
    TextParser.Within { p with summaries := p.summaries.insert sign line.position }
      { line with store := line.store.fileSummary sign line.position } := by
  refine ⟨?_, within.held, within.currentMF, within.currentMetric, within.summaryCount,
    within.summarySum, within.histogramCount, within.histogramSum, within.labels,
    within.quantile, within.bucket⟩
  rw [← within.store]
  unfold TextParser.store Store.fileSummary
  dsimp only
  rw [lookup_insert_eq]

theorem histograms (within : p.Within line) (sign : UInt64) :
    TextParser.Within { p with histograms := p.histograms.insert sign line.position }
      { line with store := line.store.fileHistogram sign line.position } := by
  refine ⟨?_, within.held, within.currentMF, within.currentMetric, within.summaryCount,
    within.summarySum, within.histogramCount, within.histogramSum, within.labels,
    within.quantile, within.bucket⟩
  rw [← within.store]
  unfold TextParser.store Store.fileHistogram
  dsimp only
  rw [lookup_insert_eq]

theorem moveTo (within : p.Within line) (position : ℕ) :
    TextParser.Within { p with currentMetric := some position }
      { line with position := position } :=
  ⟨within.store, within.held, within.currentMF, rfl, within.summaryCount,
    within.summarySum, within.histogramCount, within.histogramSum, within.labels,
    within.quantile, within.bucket⟩

/-- The parser finds the metric of the line, or lists a new one. -/
theorem placeMetric (within : p.Within line) :
    ∃ placed, p.placeMetric = .ok placed ∧ placed.Within line.place ∧
      placed.currentLabelPairs = p.currentLabelPairs ∧ placed.currentByte = p.currentByte ∧
      placed.input = p.input := by
  have isType := within.getType
  have isSignature (isOfLines : ofLines line.metricType = true) :
      labelsToSignature (p.currentLabels.getD ∅) = signature line.name line.collected := by
    rw [within.labels isOfLines]
    rfl
  unfold LineState.place Store.found Store.file
  by_cases isSummary : line.metricType = .summary
  · have sign := isSignature ((ofLines_cases _).1 isSummary)
    have sameSummaries := congrFun (congrArg Store.summaries within.store)
      (signature line.name line.collected)
    rw [if_pos isSummary, if_pos isSummary, ← sameSummaries]
    cases found : p.store.summaries (signature line.name line.collected) with
    | some position =>
        exact ⟨_, placeMetric_oldSummary (isType.trans isSummary) (sign ▸ found),
          within.moveTo position, rfl, rfl, rfl⟩
    | none =>
        have filed := within.summaries (signature line.name line.collected)
        refine ⟨_, (placeMetric_newSummary (isType.trans isSummary) (sign ▸ found)
          within.currentMetric).trans ?_, filed.list, rfl, rfl, rfl⟩
        rw [sign]
        exact filed.appendMetric
  · rw [if_neg isSummary, if_neg isSummary]
    by_cases isHistogram : ofHistogram line.metricType = true
    · have sign := isSignature ((ofLines_cases _).2 isHistogram)
      have sameHistograms := congrFun (congrArg Store.histograms within.store)
        (signature line.name line.collected)
      rw [if_pos isHistogram, if_pos isHistogram, ← sameHistograms]
      cases found : p.store.histograms (signature line.name line.collected) with
      | some position =>
          exact ⟨_, placeMetric_oldHistogram (isType ▸ isHistogram) (sign ▸ found),
            within.moveTo position, rfl, rfl, rfl⟩
      | none =>
          have filed := within.histograms (signature line.name line.collected)
          refine ⟨_, (placeMetric_newHistogram (isType ▸ isHistogram) (sign ▸ found)
            within.currentMetric).trans ?_, filed.list, rfl, rfl, rfl⟩
          rw [sign]
          exact filed.appendMetric
    · rw [if_neg isHistogram, if_neg isHistogram]
      refine ⟨_, (placeMetric_single (isType ▸ isSummary) (isType ▸ isHistogram)).trans
        within.appendMetric, within.list, rfl, rfl, rfl⟩

end TextParser.Within

/-! ## The value of a line -/

theorem modify_congr {Item : Type} {items : List Item} {change other : Item → Item} {position : ℕ}
    (same : ∀ item, items[position]? = some item → change item = other item) :
    items.modify position change = items.modify position other := by
  apply List.ext_getElem?
  intro index
  rw [List.getElem?_modify, List.getElem?_modify]
  split
  case isTrue isPosition =>
      subst isPosition
      cases here : items[position]? with
      | none => rfl
      | some item => exact congrArg some (same item here)
  case isFalse => rfl

theorem modify_length_append {Item : Type} (front : List Item) (item : Item) (back : List Item)
    (change : Item → Item) :
    (front ++ item :: back).modify front.length change = front ++ change item :: back := by
  induction front with
  | nil => rfl
  | cons first front inductionHypothesis =>
      rw [List.cons_append, List.length_cons, List.modify_succ_cons, inductionHypothesis,
        List.cons_append]

namespace TextParser.Within

variable [Strconv] {p : TextParser} {line : LineState} {sample : Sample}

theorem setSummary (within : p.Within line) (isSummary : line.metricType = .summary)
    (isKind : line.kind = lineKind line.metricType sample.suffix)
    (isLimit : line.limit = sample.limit) (summary : DtoSummary) :
    p.setSummary sample.number summary = sample.readSummary summary := by
  unfold TextParser.setSummary Sample.readSummary
  rw [within.summaryCount, within.summarySum, within.quantile isSummary, isKind, isSummary, isLimit]
  simp [lineKind]

theorem setHistogram (within : p.Within line) (isHistogram : ofHistogram line.metricType = true)
    (isKind : line.kind = lineKind line.metricType sample.suffix)
    (isLimit : line.limit = sample.limit)
    (isCount : sample.suffix ≠ text "_sum" → (readCount sample.number).isSome)
    (histogram : DtoHistogram) :
    p.setHistogram sample.number histogram = .ok (sample.readHistogram histogram) := by
  have countLine : line.kind.histogramCount = decide (sample.suffix = text "_count") := by
    simp [isKind, lineKind, isHistogram, beq_eq_decide]
  have sumLine : line.kind.histogramSum = decide (sample.suffix = text "_sum") := by
    simp [isKind, lineKind, isHistogram, beq_eq_decide]
  unfold TextParser.setHistogram Sample.readHistogram
  rw [within.histogramCount, within.histogramSum, within.bucket isHistogram, countLine, sumLine,
    isLimit]
  by_cases isSum : sample.suffix = text "_sum"
  · have notCount : sample.suffix ≠ text "_count" := by
      rw [isSum]
      decide
    rw [decide_eq_false notCount, decide_eq_true isSum]
    dsimp only
    rw [if_neg notCount, if_pos isSum]
    rfl
  · rcases Option.isSome_iff_exists.mp (isCount isSum) with ⟨⟨count, countFloat⟩, isCount⟩
    rw [isCount, decide_eq_false isSum]
    dsimp only [Option.getD_some]
    rw [if_neg isSum, if_neg Bool.false_ne_true]
    simp only [decide_eq_true_iff]
    split_ifs <;> rfl

theorem setValue (within : p.Within line)
    (isKind : line.kind = lineKind line.metricType sample.suffix)
    (isLimit : line.limit = sample.limit)
    (isCount : ofHistogram line.metricType = true → sample.suffix ≠ text "_sum" →
      (readCount sample.number).isSome) :
    p.setValue sample.number = .ok { p with
      metrics := p.metrics.modify line.position (sample.readValue line.metricType) } := by
  have update (change : DtoMetric → DtoMetric) :
      p.updateMetric change = .ok { p with metrics := p.metrics.modify line.position change } := by
    unfold TextParser.updateMetric
    rw [within.currentMetric]
  have isType := within.getType
  unfold TextParser.setValue
  rw [isType]
  cases metricType : line.metricType with
  | counter | gauge | untyped => exact update _
  | summary =>
      rw [metricType] at isKind
      have sets := within.setSummary metricType (metricType.symm ▸ isKind) isLimit
      simp only [sets]
      exact update _
  | histogram | gaugeHistogram =>
      have isHistogram : ofHistogram line.metricType = true := by rw [metricType]; rfl
      have sets := within.setHistogram isHistogram isKind isLimit (isCount isHistogram)
      dsimp only [bind, Except.bind]
      rw [sets]
      dsimp only
      rw [update]
      congr 2
      refine modify_congr fun metric here => ?_
      rw [within.currentMetric, Option.bind_some, here, Option.bind_some]
      rfl

end TextParser.Within

/-! ## Samples -/

theorem place_eq (line : LineState) :
    line.place.name = line.name ∧ line.place.metricType = line.metricType ∧
      line.place.kind = line.kind ∧ line.place.limit = line.limit := by
  unfold LineState.place
  split <;> exact ⟨rfl, rfl, rfl, rfl⟩

namespace TextParser

variable [Strconv] {p : TextParser} {line : LineState} {sample : Sample}

/-- From the value of a sample to the next line. -/
theorem reaches_nextLine {metricType : MetricType} (fits : sample.Fits metricType)
    (within : p.Within line) (pairs : p.currentLabelPairs = [])
    (isType : line.metricType = metricType)
    (isKind : line.kind = lineKind metricType sample.suffix)
    (isLimit : line.limit = sample.limit) {rest : GoString}
    (isInput : p.currentByte :: p.input = writeFloat (numberValue sample.value) ++
      ((sample.metric.timestampMs.elim [] fun timestampMs => 0x20 :: formatInt timestampMs) ++
        newline :: rest)) :
    ∃ q, Machine.Reaches next (.readingValue, p) (.startOfLine, q) ∧ q.input = rest ∧
      q.currentLabelPairs = [] ∧ q.currentMF = some line.name ∧
      q.store = line.place.store.modify line.place.position (sample.readInto metricType) := by
  rcases within.placeMetric with ⟨placed, places, placedWithin, samePairs, sameByte, sameInput⟩
  rcases place_eq line with ⟨samePlace, sameType, sameKind, sameLimit⟩
  have unread : placed.currentByte :: placed.input = p.currentByte :: p.input := by
    rw [sameByte, sameInput]
  have sets (byte : UInt8) (input : GoString) :=
    @Within.setValue _ _ _ sample (placedWithin.readTo byte input)
      (by rw [sameKind, sameType, isType, isKind]) (sameLimit.trans isLimit)
      (by rw [sameType, isType]; exact fits.count)
  rw [sameType, isType] at sets
  cases isTimestamp : sample.metric.timestampMs with
  | none =>
      rw [isTimestamp, Option.elim_none, List.nil_append] at isInput
      have reads := readingValue_writeFloat isInput (Or.inl rfl) places unread (sets _ _)
      refine ⟨_, reaches_of_step .readingValue reads, rfl, samePairs.trans pairs,
        placedWithin.currentMF.trans (congrArg some samePlace), ?_⟩
      have same : sample.readInto metricType = sample.readValue metricType := by
        funext metric
        rw [Sample.readInto, isTimestamp]
        rfl
      rw [← placedWithin.store, same]
      rfl
  | some timestampMs =>
      rw [isTimestamp, Option.elim_some, List.cons_append] at isInput
      rcases fits.timestamp timestampMs isTimestamp with ⟨low, high⟩
      have reads := readingValue_writeFloat isInput (Or.inr rfl) places unread (sets _ _)
      have times := startTimestamp_formatInt (p := { placed.readTo 0x20
          (formatInt timestampMs ++ newline :: rest) with
        metrics := placed.metrics.modify line.place.position (sample.readValue metricType) })
        rfl low high placedWithin.currentMetric
      refine ⟨_, (reaches_of_step .readingValue reads).trans
        (reaches_of_step .startTimestamp times), rfl, samePairs.trans pairs,
        placedWithin.currentMF.trans (congrArg some samePlace), ?_⟩
      have same : (fun metric : DtoMetric => { metric with timestampMs := some timestampMs }) ∘
          sample.readValue metricType = sample.readInto metricType := by
        funext metric
        rw [Function.comp_apply, Sample.readInto, isTimestamp]
        rfl
      rw [← placedWithin.store, ← same]
      unfold Store.modify
      rw [← List.modify_modify_eq]
      rfl

theorem writeFloat_eq_cons (number : Float64) :
    ∃ first tail, writeFloat number = first :: tail ∧ isBlankOrTab first = false ∧
      first ≠ openBrace := by
  have nonempty : writeFloat number ≠ [] := by
    intro isEmpty
    have parsed := parseFloat_writeFloat number
    unfold writeFloat at isEmpty
    split_ifs at isEmpty with isOne isZero isMinusOne isNaN isInfinity isMinusInfinity
    all_goals first | exact absurd isEmpty (by decide) | skip
    have finite : number.isFinite := by simp [Float64.isFinite, isNaN, isInfinity, isMinusInfinity]
    exact (Strconv.formatFloat_plain number finite).1 isEmpty
  rcases List.exists_cons_of_ne_nil nonempty with ⟨first, tail, written⟩
  have isNumberByte := contains_writeFloat number first (by rw [written]; exact List.mem_cons_self)
  refine ⟨first, tail, written, (numberByte isNumberByte).2.1, ?_⟩
  rintro rfl
  exact absurd isNumberByte (by decide)

theorem store_place (store : Store) (metricType : MetricType) (sample : Sample) :
    (endOfLabels store metricType sample).attach.place.store.modify
        (endOfLabels store metricType sample).attach.place.position (sample.readInto metricType) =
      store.readSample metricType sample := by
  have attached : (endOfLabels store metricType sample).attach.store =
      { store with metrics := store.metrics ++ [{ label := sample.metric.label }] } := by
    unfold LineState.attach Store.modify
    simp [endOfLabels, startOfSample, Store.allocate, modify_length_append]
  have sameFound : (endOfLabels store metricType sample).attach.store.found
      (endOfLabels store metricType sample).attach.metricType
      (signature (endOfLabels store metricType sample).attach.name
        (endOfLabels store metricType sample).attach.collected) =
      store.found metricType (signature sample.name sample.metric.label) := rfl
  unfold LineState.place Store.readSample
  dsimp only
  rw [sameFound]
  cases store.found metricType (signature sample.name sample.metric.label) with
  | some position => exact congrArg (Store.modify · position _) attached
  | none =>
      dsimp only
      rw [attached]
      rfl

/-- A sample line is read as one operation. -/
theorem reaches_sample {metricType : MetricType} (fits : sample.Fits metricType)
    (current : p.store.Current sample.name metricType) (pairs : p.currentLabelPairs = [])
    (isCurrentMF : p.currentMF = some sample.name) {rest : GoString}
    (isInput : p.input = writeSample sample ++ rest) :
    ∃ q, Machine.Reaches next (.startOfLine, p) (.startOfLine, q) ∧ q.input = rest ∧
      q.currentLabelPairs = [] ∧ q.currentMF = some sample.name ∧
      q.store = p.store.readSample metricType sample := by
  rcases writeFloat_eq_cons (numberValue sample.value) with
    ⟨first, tail, written, notBlank, notBrace⟩
  have isInput : p.input = writeNameAndLabelPairs (sample.name ++ sample.suffix)
      sample.metric.label sample.additionalLabel ++ 0x20 :: first :: (tail ++
        ((sample.metric.timestampMs.elim [] fun timestampMs => 0x20 :: formatInt timestampMs) ++
          newline :: rest)) := by
    rw [isInput, writeSample, written, show text " " = [0x20] from rfl]
    cases sample.metric.timestampMs <;> simp
  have value : ∃ q, Machine.Reaches next (.startOfLine, p) (.readingValue, q) ∧
      q.Within (endOfLabels p.store metricType sample).attach ∧ q.currentLabelPairs = [] ∧
      q.currentByte = first ∧ q.input = tail ++
        ((sample.metric.timestampMs.elim [] fun timestampMs => 0x20 :: formatInt timestampMs) ++
          newline :: rest) := by
    cases isLegacy : isLegacyName (sample.name ++ sample.suffix) with
    | true =>
        exact reaches_readingValue_legacy fits current pairs isLegacy notBlank notBrace isInput
    | false =>
        exact reaches_readingValue_quoted fits current pairs isCurrentMF isLegacy notBlank isInput
  rcases value with ⟨q, reaches, within, pairs, isByte, isRest⟩
  have unread : q.currentByte :: q.input = writeFloat (numberValue sample.value) ++
      ((sample.metric.timestampMs.elim [] fun timestampMs => 0x20 :: formatInt timestampMs) ++
        newline :: rest) := by
    rw [isByte, isRest, written]
    rfl
  rcases reaches_nextLine fits within pairs rfl rfl rfl unread with
    ⟨last, more, isRest, pairs, isCurrentMF, isStore⟩
  exact ⟨last, reaches.trans more, isRest, pairs, isCurrentMF,
    isStore.trans (store_place p.store metricType sample)⟩

end TextParser

/-! ## Descriptions -/

/-- Of the help text it is skipped what is blank. -/
theorem skipBlankTab_escapedString (help rest : GoString) :
    ∃ byte input, skipBlankTab (escapedString false help ++ newline :: rest) = .ok (byte, input) ∧
      byte :: input =
        escapedString false (help.dropWhile isBlankOrTab) ++ newline :: rest ∧
      (byte = newline ↔ help.dropWhile isBlankOrTab = []) := by
  induction help with
  | nil => exact ⟨newline, rest, skipBlankTab_cons (by decide) rest, rfl, by simp⟩
  | cons first help inductionHypothesis =>
      cases isBlank : isBlankOrTab first with
      | true =>
          have asIs : escapeByte false first = [first] := by
            have every : ∀ number < 256, isBlankOrTab (UInt8.ofNat number) = true →
                escapeByte false (UInt8.ofNat number) = [UInt8.ofNat number] := by decide +kernel
            simpa using every first.toNat first.toNat_lt (by simpa using isBlank)
          rw [escapedString, List.flatMap_cons, asIs, List.append_assoc, List.singleton_append,
            skipBlankTab, if_pos isBlank, List.dropWhile_cons_of_pos isBlank]
          exact inductionHypothesis
      | false =>
          rw [List.dropWhile_cons_of_neg (by simp [isBlank])]
          rw [escapedString, List.flatMap_cons]
          rcases escapeByte_cases false first with
            ⟨written, _, not_newline, _⟩ | ⟨mark, written, _⟩
          · rw [written]
            exact ⟨first, _, skipBlankTab_cons isBlank _, rfl, by simp [not_newline]⟩
          · rw [written]
            exact ⟨backslash, _, skipBlankTab_cons (by decide) _, rfl, by simp; decide⟩

namespace TextParser

variable {p : TextParser}

/-- The family of a description, which may be new. -/
theorem setOrCreateCurrentMF_eq {name : GoString} (name_ne_nil : name ≠ [])
    (valid : validString name = true)
    (finds : p.findMF name = none ∨ p.findMF name = some (name, {})) :
    ∃ found, p.setOrCreateCurrentMF name = .ok found ∧
      found.store = p.store.setFamily name (p.store.family name) ∧ found.currentMF = some name ∧
      found.currentLabelPairs = p.currentLabelPairs := by
  unfold setOrCreateCurrentMF
  rw [ensure_eq_ok (by simp [name_ne_nil, valid])]
  rcases finds with finds | finds
  · have missing : p.store.families name = none := p.lookup_of_findMF_eq_none finds
    rw [finds]
    refine ⟨_, rfl, ?_, rfl, rfl⟩
    rw [Store.family, missing]
    exact store_insert p name {}
  · rcases Option.isSome_iff_exists.mp (p.lookup_of_findMF finds) with ⟨family, held⟩
    replace held : p.store.families name = some family := held
    rw [finds]
    refine ⟨_, rfl, ?_, rfl, rfl⟩
    rw [Store.family, held, Option.getD_some]
    unfold Store.setFamily
    rw [← held, Function.update_eq_self]
    rfl

theorem updateMF_eq {name : GoString} (isCurrentMF : p.currentMF = some name)
    (change : DtoFamily ℕ → DtoFamily ℕ) :
    p.updateMF change = .ok { p with
      metricFamiliesByName :=
        p.metricFamiliesByName.insert name (change (p.store.family name)) } := by
  unfold updateMF TextParser.family
  rw [isCurrentMF]
  rfl

theorem family_of_setFamily {found : TextParser} {name : GoString} {family : DtoFamily ℕ}
    {store : Store} (isCurrentMF : found.currentMF = some name)
    (isStore : found.store = store.setFamily name family) :
    found.family = some family := by
  have held : found.store.families name = some family := by
    rw [isStore]
    exact Function.update_self _ _ _
  rw [TextParser.family, isCurrentMF]
  exact held

theorem setFamily_setFamily (store : Store) (name : GoString) (family other : DtoFamily ℕ) :
    (store.setFamily name family).setFamily name other = store.setFamily name other := by
  unfold Store.setFamily
  rw [Function.update_idem]

theorem startComment_description {keyword name rest input : GoString} {byte : UInt8}
    {found : TextParser} (isKeyword : keyword = text "HELP" ∨ keyword = text "TYPE")
    (isInput : p.input = 0x20 :: (keyword ++ 0x20 :: (writeName name ++ 0x20 :: rest)))
    (sets : p.setOrCreateCurrentMF name = .ok found)
    (skips : skipBlankTab rest = .ok (byte, input)) :
    p.startComment = .ok (some (if byte = newline then .startOfLine
      else if keyword = text "HELP" then .readingHelp else .readingType),
        found.readTo byte input) := by
  have literal : ∀ word ∈ [text "HELP", text "TYPE"], ∃ first tail, word = first :: tail ∧
      isBlankOrTab first = false ∧ first ≠ newline ∧
      ∀ part ∈ word, part ≠ newline ∧ isBlankOrTab part = false := by
    intro word wordMem
    simp only [List.mem_cons, List.not_mem_nil, or_false] at wordMem
    rcases wordMem with rfl | rfl <;> exact ⟨_, _, rfl, by decide +kernel⟩
  rcases literal keyword (by rcases isKeyword with rfl | rfl <;> simp) with
    ⟨first, tail, isWord, notBlank, notNewline, plain⟩
  rcases writeName_eq_cons name with ⟨nameFirst, nameTail, written, nameNotBlank, _⟩
  have skipsBlank : skipBlankTab p.input =
      .ok (first, tail ++ 0x20 :: (writeName name ++ 0x20 :: rest)) := by
    rw [isInput, isWord, skipBlankTab, if_pos (by decide), List.cons_append,
      skipBlankTab_cons notBlank]
  have readsWord := readTokenUntilWhitespace_append plain (Or.inr rfl)
    (writeName name ++ 0x20 :: rest)
  rw [isWord, List.cons_append, ← isWord] at readsWord
  have readsName := @readTokenAsMetricName_writeName name 0x20 (fun _ => Or.inr rfl) rest
  have skipsToName : skipBlankTab (writeName name ++ 0x20 :: rest) =
      .ok (nameFirst, nameTail ++ 0x20 :: rest) := by
    rw [written, List.cons_append, skipBlankTab_cons nameNotBlank]
  rw [written, List.cons_append] at readsName
  unfold startComment
  rw [skipsBlank]
  dsimp only [bind, Except.bind]
  rw [if_neg (by simpa using notNewline), readsWord]
  dsimp only
  rw [if_neg (by decide), if_neg (by rcases isKeyword with rfl | rfl <;> decide), skipsToName]
  dsimp only
  rw [readsName]
  dsimp only
  rw [if_neg (by decide), ensure_eq_ok (by decide), sets]
  dsimp only
  rw [skips]
  dsimp only
  by_cases ends : byte = newline
  · rw [ends]
    rfl
  · rw [if_neg (by simpa using ends), if_neg ends]
    rfl

/-- From the start of a description to its text. -/
theorem reaches_description [Strconv] {keyword name rest input : GoString} {byte : UInt8}
    {found : TextParser} (isKeyword : keyword = text "HELP" ∨ keyword = text "TYPE")
    (isInput : p.input =
      hashSign :: 0x20 :: (keyword ++ 0x20 :: (writeName name ++ 0x20 :: rest)))
    (sets : ((p.newLine false).readTo hashSign (0x20 :: (keyword ++ 0x20 :: (writeName name ++
      0x20 :: rest)))).setOrCreateCurrentMF name = .ok found)
    (skips : skipBlankTab rest = .ok (byte, input)) :
    Machine.Reaches next (.startOfLine, p) (if byte = newline then .startOfLine
      else if keyword = text "HELP" then .readingHelp else .readingType,
        found.readTo byte input) := by
  have newLine := startOfLine_cons isInput (by decide)
  rw [if_pos rfl] at newLine
  have describes := startComment_description isKeyword rfl sets skips
  exact (reaches_of_step .startOfLine newLine).trans (reaches_of_step .startComment describes)

theorem readingHelp_escapedString {name help rest : GoString} {family : DtoFamily ℕ}
    (isInput : p.currentByte :: p.input = escapedString false help ++ newline :: rest)
    (isCurrentMF : p.currentMF = some name) (isFamily : p.family = some family)
    (noHelp : family.help = none) :
    p.readingHelp = .ok (some .startOfLine, TextParser.readTo { p with
      metricFamiliesByName := p.metricFamiliesByName.insert name
        { family with help := some help } } newline rest) := by
  have sameFamily : p.store.family name = family := by
    rw [TextParser.family, isCurrentMF] at isFamily
    exact congrArg (Option.getD · {}) isFamily
  have missing : (p.family.bind DtoFamily.help).isNone = true := by
    rw [isFamily, Option.bind_some, noHelp]
    rfl
  unfold readingHelp
  rw [ensure_eq_ok missing, isInput, readTokenUntilNewline_escapedString]
  dsimp only [bind, Except.bind]
  rw [updateMF_eq isCurrentMF, sameFamily]
  rfl

theorem word_eq_cons (metricType : MetricType) :
    ∃ first tail, metricType.word = first :: tail ∧ isBlankOrTab first = false ∧
      first ≠ newline := by
  cases metricType <;> exact ⟨_, _, rfl, by decide⟩

theorem readingType_word [Strconv] {name rest : GoString} {family : DtoFamily ℕ}
    {metricType : MetricType}
    (isInput : p.currentByte :: p.input = metricType.word ++ newline :: rest)
    (isCurrentMF : p.currentMF = some name) (isFamily : p.family = some family)
    (noType : family.type = none) :
    p.readingType = .ok (some .startOfLine, TextParser.readTo { p with
      metricFamiliesByName := p.metricFamiliesByName.insert name
        { family with type := some (rereadType metricType) } } newline rest) := by
  have sameFamily : p.store.family name = family := by
    rw [TextParser.family, isCurrentMF] at isFamily
    exact congrArg (Option.getD · {}) isFamily
  have missing : (p.family.bind DtoFamily.type).isNone = true := by
    rw [isFamily, Option.bind_some, noType]
    rfl
  have plain : ∀ byte ∈ metricType.word, byte ≠ newline ∧ byte ≠ backslash := by
    cases metricType <;> decide +kernel
  have isType : metricTypeValue (Strconv.toUpper metricType.word) =
      some (rereadType metricType) := by
    rw [Strconv.toUpper_ascii _ (by cases metricType <;> decide +kernel)]
    cases metricType <;> decide
  unfold readingType
  rw [ensure_eq_ok missing, isInput, readTokenUntilNewline_plain plain]
  dsimp only [bind, Except.bind]
  rw [isType]
  dsimp only
  rw [updateMF_eq isCurrentMF, sameFamily]
  rfl

/-- A help line is read as one operation. -/
theorem reaches_help [Strconv] {name help rest : GoString} (name_ne_nil : name ≠ [])
    (valid : validString name = true)
    (finds : p.findMF name = none ∨ p.findMF name = some (name, {}))
    (noHelp : (p.store.family name).help = none) (pairs : p.currentLabelPairs = [])
    (isInput : p.input = writeLine (.help name help) ++ rest) :
    ∃ q, Machine.Reaches next (.startOfLine, p) (.startOfLine, q) ∧ q.input = rest ∧
      q.currentLabelPairs = [] ∧ q.currentMF = some name ∧
      q.store = p.store.readHelp name help := by
  rcases skipBlankTab_escapedString help rest with ⟨byte, input, skips, unread, isEmpty⟩
  have isInput : p.input = hashSign :: 0x20 :: (text "HELP" ++ 0x20 :: (writeName name ++
      0x20 :: (escapedString false help ++ newline :: rest))) := by
    rw [isInput, writeLine, show text " " = [0x20] from rfl,
      show text "# HELP " = hashSign :: 0x20 :: (text "HELP" ++ [0x20]) from rfl]
    simp
  rcases setOrCreateCurrentMF_eq (p := (p.newLine false).readTo hashSign (0x20 :: (text "HELP" ++
    0x20 :: (writeName name ++ 0x20 :: (escapedString false help ++ newline :: rest)))))
    name_ne_nil valid finds with ⟨found, sets, isStore, isCurrentMF, samePairs⟩
  replace isStore : found.store = p.store.setFamily name (p.store.family name) := isStore
  have described := reaches_description (Or.inl rfl) isInput sets skips
  by_cases trimmed : help.dropWhile isBlankOrTab = []
  · rw [if_pos (isEmpty.mpr trimmed)] at described
    rw [trimmed, isEmpty.mpr trimmed] at unread
    refine ⟨_, described, (List.cons.inj unread).2, samePairs.trans pairs, isCurrentMF, ?_⟩
    rw [Store.readHelp, if_pos trimmed]
    exact isStore
  · rw [if_neg (fun ends => trimmed (isEmpty.mp ends)), if_pos rfl] at described
    have isFamily := family_of_setFamily isCurrentMF isStore
    have helps := readingHelp_escapedString (p := found.readTo byte input) unread isCurrentMF
      isFamily noHelp
    refine ⟨_, described.trans (reaches_of_step .readingHelp helps), rfl, samePairs.trans pairs,
      isCurrentMF, ?_⟩
    rw [Store.readHelp, if_neg trimmed, ← setFamily_setFamily p.store name (p.store.family name)]
    exact (store_insert _ _ _).trans (congrArg (Store.setFamily · name _) isStore)

/-- A type line is read as one operation. -/
theorem reaches_type [Strconv] {name rest : GoString} {metricType : MetricType}
    (name_ne_nil : name ≠ []) (valid : validString name = true)
    (finds : p.findMF name = none ∨ p.findMF name = some (name, {}))
    (noType : (p.store.family name).type = none) (pairs : p.currentLabelPairs = [])
    (isInput : p.input = writeLine (.type name metricType.word) ++ rest) :
    ∃ q, Machine.Reaches next (.startOfLine, p) (.startOfLine, q) ∧ q.input = rest ∧
      q.currentLabelPairs = [] ∧ q.currentMF = some name ∧
      q.store = p.store.readType name metricType := by
  have isInput : p.input = hashSign :: 0x20 :: (text "TYPE" ++ 0x20 :: (writeName name ++
      0x20 :: (metricType.word ++ newline :: rest))) := by
    rw [isInput, writeLine, show text " " = [0x20] from rfl,
      show text "# TYPE " = hashSign :: 0x20 :: (text "TYPE" ++ [0x20]) from rfl]
    simp
  rcases word_eq_cons metricType with ⟨first, tail, isWord, notBlank, notNewline⟩
  have skips : skipBlankTab (metricType.word ++ newline :: rest) =
      .ok (first, tail ++ newline :: rest) := by
    rw [isWord, List.cons_append, skipBlankTab_cons notBlank]
  rcases setOrCreateCurrentMF_eq (p := (p.newLine false).readTo hashSign (0x20 :: (text "TYPE" ++
    0x20 :: (writeName name ++ 0x20 :: (metricType.word ++ newline :: rest)))))
    name_ne_nil valid finds with ⟨found, sets, isStore, isCurrentMF, samePairs⟩
  replace isStore : found.store = p.store.setFamily name (p.store.family name) := isStore
  have described := reaches_description (Or.inr rfl) isInput sets skips
  rw [if_neg notNewline, if_neg (by decide)] at described
  have isFamily := family_of_setFamily isCurrentMF isStore
  have unread : first :: (tail ++ newline :: rest) = metricType.word ++ newline :: rest := by
    rw [isWord]
    rfl
  have types := readingType_word (p := found.readTo first (tail ++ newline :: rest)) unread
    isCurrentMF isFamily noType
  refine ⟨_, described.trans (reaches_of_step .readingType types), rfl, samePairs.trans pairs,
    isCurrentMF, ?_⟩
  rw [Store.readType, ← setFamily_setFamily p.store name (p.store.family name)]
  exact (store_insert _ _ _).trans (congrArg (Store.setFamily · name _) isStore)

/-- An empty line is skipped. -/
theorem reaches_blank [Strconv] {rest : GoString} (isInput : p.input = writeLine .blank ++ rest) :
    ∃ q, Machine.Reaches next (.startOfLine, p) (.startOfLine, q) ∧ q.input = rest ∧
      q.currentLabelPairs = p.currentLabelPairs ∧ q.store = p.store := by
  have newLine := startOfLine_cons isInput (by decide)
  exact ⟨_, reaches_of_step .startOfLine newLine, rfl, rfl, rfl⟩

end TextParser

end Expfmt

end Promfetcher
