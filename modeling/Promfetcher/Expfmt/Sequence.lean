import Promfetcher.Expfmt.Gathering

/-!
# Families that are written one after the other

The text parser on the lines that `MetricFamilyToText` has written of one family
and then of the next, as long as no name or signature of a family stands in the
way of another one.
-/

namespace Promfetcher

open Foundation

/-! ## Families that are read back -/

/-- A histogram with a negative count is not read. -/
def Value.NoNegativeCount : Value → Prop
  | .histogram _ sampleCountFloat _ bucket => sampleCountFloat.isNegative = false ∧
      ∀ b ∈ bucket, b.cumulativeCountFloat.isNegative = false
  | _ => True

instance (value : Value) : Decidable value.NoNegativeCount :=
  match value with
  | .histogram _ _ _ _ => inferInstanceAs (Decidable (_ ∧ _))
  | .counter _ | .gauge _ | .untyped _ | .summary _ _ _ => inferInstanceAs (Decidable True)

/-- What is written of a metric is accepted by the text parser, in a family of the type. -/
structure Metric.Writable (metric : Metric) (metricType : MetricType) : Prop where
  labelled : Expfmt.WellLabelled metric.label
  readable : ∀ label ∈ metric.label, ∀ labelName, label.name = some labelName →
    (Expfmt.isLegacyName labelName = true → colon ∉ labelName) ∧
      Expfmt.ofMetric metricType labelName = true
  timestamp : ∀ timestampMs, metric.timestampMs = some timestampMs →
    -2 ^ 63 ≤ timestampMs ∧ timestampMs < 2 ^ 63
  count : metric.value.NoNegativeCount

instance (metric : Metric) (metricType : MetricType) : Decidable (metric.Writable metricType) :=
  decidable_of_iff (Expfmt.WellLabelled metric.label ∧
      (∀ label ∈ metric.label, ∀ labelName ∈ label.name,
        (Expfmt.isLegacyName labelName = true → colon ∉ labelName) ∧
          Expfmt.ofMetric metricType labelName = true) ∧
      (∀ timestampMs ∈ metric.timestampMs, -2 ^ 63 ≤ timestampMs ∧ timestampMs < 2 ^ 63) ∧
      metric.value.NoNegativeCount)
    ⟨fun ⟨labelled, readable, timestamp, count⟩ => ⟨labelled, readable, timestamp, count⟩,
      fun writable =>
        ⟨writable.labelled, writable.readable, writable.timestamp, writable.count⟩⟩

/-- What is written of a family is accepted by the text parser. -/
structure MetricFamily.Writable (family : MetricFamily) (name : GoString) : Prop where
  parsed : family.Parsed name
  valid : validString name = true
  metrics : ∀ metric ∈ family.metric, metric.Writable family.getType

instance (family : MetricFamily) (name : GoString) : Decidable (family.Writable name) :=
  decidable_of_iff (family.Parsed name ∧ validString name = true ∧
      ∀ metric ∈ family.metric, metric.Writable family.getType)
    ⟨fun ⟨parsed, valid, metrics⟩ => ⟨parsed, valid, metrics⟩,
      fun writable => ⟨writable.parsed, writable.valid, writable.metrics⟩⟩

namespace Expfmt

/-! ## Types and names -/

theorem rereadType_eq (metricType : MetricType) :
    (rereadType metricType).kind = metricType.kind ∧
      ofHistogram (rereadType metricType) = ofHistogram metricType ∧
      suffixes (rereadType metricType) = suffixes metricType ∧
      (rereadType metricType = .summary ↔ metricType = .summary) ∧
      ofMetric (rereadType metricType) = ofMetric metricType := by
  cases metricType <;> exact ⟨rfl, rfl, rfl, by decide, rfl⟩

theorem kind_eq_histogram {metricType : MetricType} :
    metricType.kind = .histogram ↔ ofHistogram metricType = true := by
  cases metricType <;> decide

theorem kind_eq_summary {metricType : MetricType} :
    metricType.kind = .summary ↔ metricType = .summary := by
  cases metricType <;> decide

theorem found_rereadType (store : Store) (metricType : MetricType) (sign : UInt64) :
    store.found (rereadType metricType) sign = store.found metricType sign := by
  cases metricType <;> rfl

theorem take_append_of_isSuffixOf {name suffix : GoString}
    (isSuffix : suffix.isSuffixOf name = true) :
    name.take (name.length - suffix.length) ++ suffix = name :=
  List.suffix_iff_eq_append.mp (List.isSuffixOf_iff_suffix.mp isSuffix)

/-- A name that is shortened is that of a line. -/
theorem summaryMetricName_cases (name : GoString) :
    summaryMetricName name = name ∨
      ∃ suffix ∈ suffixes .summary, summaryMetricName name ++ suffix = name := by
  unfold summaryMetricName
  split_ifs with isCount isSum
  · refine Or.inr ⟨text "_count", by decide, ?_⟩
    exact take_append_of_isSuffixOf (Bool.and_eq_true_iff.mp isCount).2
  · refine Or.inr ⟨text "_sum", by decide, ?_⟩
    exact take_append_of_isSuffixOf (Bool.and_eq_true_iff.mp isSum).2
  · exact Or.inl rfl

theorem histogramMetricName_cases (name : GoString) :
    histogramMetricName name = name ∨
      ∃ suffix ∈ suffixes .histogram, histogramMetricName name ++ suffix = name := by
  unfold histogramMetricName
  split_ifs with isCount isSum isBucket
  · refine Or.inr ⟨text "_count", by decide, ?_⟩
    exact take_append_of_isSuffixOf (Bool.and_eq_true_iff.mp isCount).2
  · refine Or.inr ⟨text "_sum", by decide, ?_⟩
    exact take_append_of_isSuffixOf (Bool.and_eq_true_iff.mp isSum).2
  · refine Or.inr ⟨text "_bucket", by decide, ?_⟩
    exact take_append_of_isSuffixOf (Bool.and_eq_true_iff.mp isBucket).2
  · exact Or.inl rfl

theorem suffixes_of_ofHistogram {metricType : MetricType}
    (isHistogram : ofHistogram metricType = true) : suffixes metricType = suffixes .histogram := by
  cases metricType <;> first | rfl | cases isHistogram

/-! ## Descriptions and signatures -/

/-- The help text that is read. -/
def rereadHelp (help : Option GoString) : Option GoString :=
  help.bind fun help => if help.dropWhile isBlankOrTab = [] then none
    else some (help.dropWhile isBlankOrTab)

/-- A family that has been described, and has no metrics so far. -/
def described (family : MetricFamily) : DtoFamily ℕ where
  help := rereadHelp family.help
  type := some (rereadType family.getType)

/-- A new family has no metrics, so that everything stays in order. -/
theorem tidy_described {store : Store} (tidy : store.Tidy) (name : GoString)
    (family : MetricFamily) : (store.setFamily name (described family)).Tidy := by
  refine ⟨?_, ?_, tidy.inside, tidy.distinct⟩
  · intro other found lookup position positionMem
    rw [Store.families_setFamily] at lookup
    split_ifs at lookup
    · cases lookup
      cases positionMem
    · exact tidy.bounded lookup position positionMem
  · intro other found lookup position positionMem
    rw [Store.families_setFamily] at lookup
    split_ifs at lookup
    · cases lookup
      cases positionMem
    · exact tidy.filed lookup position positionMem

theorem contents_setFamily (store : Store) (name : GoString) (family : DtoFamily ℕ)
    (other : GoString) :
    (store.setFamily name family).contents other =
      if other = name then some { family with metric := store.listed family }
      else store.contents other := by
  unfold Store.contents
  rw [Store.families_setFamily]
  split_ifs <;> rfl

/-- The signatures of the metrics of all families of some types. -/
def signsOf (isType : MetricType → Bool) (order : List (Sigma fun _ : GoString => MetricFamily)) :
    List UInt64 :=
  order.flatMap fun entry => if isType entry.2.getType then signs entry.1 entry.2.metric else []

/-- The families do not stand in the way of each other: none has the name of a line of another
one, and no two summaries or histograms have one signature. -/
structure AllWritable (order : List (Sigma fun _ : GoString => MetricFamily)) : Prop where
  distinct : order.NodupKeys
  writable : ∀ entry ∈ order, entry.2.Writable entry.1
  noSuffix : ∀ entry ∈ order, ∀ suffix ∈ suffixes entry.2.getType,
    entry.1 ++ suffix ∉ order.keys
  summaries : (signsOf (· == .summary) order).Nodup
  histograms : (signsOf ofHistogram order).Nodup

instance (order : List (Sigma fun _ : GoString => MetricFamily)) : Decidable (AllWritable order) :=
  decidable_of_iff (order.keys.Nodup ∧ (∀ entry ∈ order, entry.2.Writable entry.1) ∧
      (∀ entry ∈ order, ∀ suffix ∈ suffixes entry.2.getType, ∀ name ∈ order.keys,
        entry.1 ++ suffix ≠ name) ∧
      (signsOf (· == .summary) order).Nodup ∧ (signsOf ofHistogram order).Nodup)
    ⟨fun ⟨distinct, writable, noSuffix, summaries, histograms⟩ =>
        ⟨distinct, writable, fun entry entryMem suffix suffixMem =>
          List.forall_mem_ne.mp (noSuffix entry entryMem suffix suffixMem), summaries, histograms⟩,
      fun all => ⟨all.distinct, all.writable, fun entry entryMem suffix suffixMem =>
        List.forall_mem_ne.mpr (all.noSuffix entry entryMem suffix suffixMem), all.summaries,
        all.histograms⟩⟩

theorem signsOf_append (isType : MetricType → Bool)
    (done rest : List (Sigma fun _ : GoString => MetricFamily)) :
    signsOf isType (done ++ rest) = signsOf isType done ++ signsOf isType rest :=
  List.flatMap_append

theorem signsOf_cons {isType : MetricType → Bool}
    (entry : Sigma fun _ : GoString => MetricFamily)
    (rest : List (Sigma fun _ : GoString => MetricFamily)) :
    signsOf isType (entry :: rest) =
      (if isType entry.2.getType then signs entry.1 entry.2.metric else []) ++
        signsOf isType rest :=
  List.flatMap_cons

/-- No metric of the next family has been read. -/
theorem missing_signs {isType : MetricType → Bool}
    {done rest : List (Sigma fun _ : GoString => MetricFamily)} {name : GoString}
    {family : MetricFamily}
    (distinct : (signsOf isType (done ++ ⟨name, family⟩ :: rest)).Nodup)
    (ofType : isType family.getType = true) {held : UInt64 → Option ℕ}
    (read : ∀ sign, held sign ≠ none → sign ∈ signsOf isType done) :
    (signs name family.metric).Nodup ∧ ∀ sign ∈ signs name family.metric, held sign = none := by
  rw [signsOf_append, signsOf_cons, if_pos ofType, List.nodup_append] at distinct
  refine ⟨(List.nodup_append.mp distinct.2.1).1, fun sign signMem => ?_⟩
  by_contra isHeld
  exact distinct.2.2 sign (read sign isHeld) sign (List.mem_append_left _ signMem) rfl

variable [Strconv]

/-! ## The lines of a family -/

theorem isSome_readCount {number : Float64} (notNegative : number.isNegative = false) :
    (TextParser.readCount number).isSome := by
  unfold TextParser.readCount
  rw [notNegative, if_neg Bool.false_ne_true]
  split_ifs <;> rfl

/-- The count of a sample of a histogram is read. -/
theorem isSome_readCount_countOr {float : Float64} (notNegative : float.isNegative = false)
    (count : UInt64) :
    (TextParser.readCount (rereadFloat (numberValue (countOr float count)))).isSome := by
  refine isSome_readCount (isNegative_rereadFloat ?_)
  unfold countOr
  split
  · exact Strconv.isNegative_float64 count
  · exact notNegative

/-- Every sample that is written of a family is read back. -/
theorem fits_of_writable {family : MetricFamily} {name : GoString}
    (writable : family.Writable name) {metric : Metric} (metricMem : metric ∈ family.metric)
    {sample : Sample} (sampleMem : sample ∈ metricSamples name metric) :
    sample.name = name ∧ sample.Fits (rereadType family.getType) := by
  rcases eq_of_mem_metricSamples sampleMem with ⟨isName, isMetric⟩
  rcases rereadType_eq family.getType with ⟨sameKind, _, _, _, sameLabels⟩
  rcases writable.metrics metric metricMem with ⟨labelled, readable, timestamp, noNegative⟩
  have isKind : metric.value.kind = (rereadType family.getType).kind :=
    (writable.parsed.kinds metric metricMem).trans sameKind.symm
  have fits
      (suffix : sample.suffix = [] ∨ sample.suffix ∈ suffixes (rereadType family.getType))
      (additional : ∀ label, sample.additionalLabel = some label →
        rereadType family.getType = .summary ∧ label.1 = quantileLabel ∨
          ofHistogram (rereadType family.getType) = true ∧ label.1 = bucketLabel)
      (count : ofHistogram (rereadType family.getType) = true → sample.suffix ≠ text "_sum" →
        (TextParser.readCount sample.number).isSome) :
      sample.Fits (rereadType family.getType) := by
    refine ⟨suffix, additional, ?_, ?_, ?_, count⟩
    · rw [isMetric]
      exact labelled
    · rw [isMetric, sameLabels]
      exact readable
    · rw [isMetric]
      exact timestamp
  refine ⟨isName, ?_⟩
  rw [metricSamples_eq] at sampleMem
  cases value : metric.value with
  | counter number | gauge number | untyped number =>
      rw [value] at isKind
      simp only [value, List.mem_singleton] at sampleMem
      subst sampleMem
      refine fits (Or.inl rfl) nofun fun isHistogram => ?_
      cases isKind.trans (kind_eq_histogram.mpr isHistogram)
  | summary sampleCount sampleSum quantile =>
      rw [value] at isKind
      have isSummary := kind_eq_summary.mp isKind.symm
      rw [isSummary] at fits ⊢
      simp only [value, List.mem_append, List.mem_map, List.mem_cons, List.not_mem_nil,
        or_false] at sampleMem
      rcases sampleMem with ⟨q, _, rfl⟩ | rfl | rfl
      · exact fits (Or.inl rfl) (fun label isLabel => Or.inl ⟨rfl, by cases isLabel; rfl⟩) nofun
      · have isSum : text "_sum" ∈ suffixes .summary := by decide
        exact fits (Or.inr isSum) nofun nofun
      · have isCount : text "_count" ∈ suffixes .summary := by decide
        exact fits (Or.inr isCount) nofun nofun
  | histogram sampleCount sampleCountFloat sampleSum bucket =>
      rw [value] at isKind noNegative
      have isHistogram := kind_eq_histogram.mp isKind.symm
      have lines : suffixes (rereadType family.getType) =
          [text "_bucket", text "_sum", text "_count"] := by
        rw [suffixes, if_neg (ne_summary_of_ofHistogram isHistogram), if_pos isHistogram]
      rw [lines] at fits
      simp only [value, List.mem_append, List.mem_map, List.mem_cons, List.not_mem_nil,
        or_false] at sampleMem
      rcases sampleMem with ⟨b, bucketMem, rfl⟩ | rfl | rfl
      · refine fits (Or.inr (List.Mem.head _))
          (fun label isLabel => Or.inr ⟨isHistogram, by cases isLabel; rfl⟩) fun _ _ => ?_
        refine isSome_readCount_countOr ?_ b.cumulativeCount
        rcases List.mem_append.mp bucketMem with bucketMem | bucketMem
        · exact noNegative.2 b bucketMem
        · split at bucketMem
          · cases bucketMem
          · rw [List.mem_singleton.mp bucketMem]
            exact noNegative.1
      · exact fits (Or.inr (List.Mem.tail _ (List.Mem.head _))) nofun
          fun _ notSum => absurd rfl notSum
      · exact fits (Or.inr (List.Mem.tail _ (List.Mem.tail _ (List.Mem.head _)))) nofun
          fun _ _ => isSome_readCount_countOr noNegative.1 sampleCount

/-! ## The description of a family -/

namespace TextParser

/-- A family is described in one or two lines. -/
theorem reaches_header {p : TextParser} {name : GoString} {family : MetricFamily}
    (name_ne_nil : name ≠ []) (valid : validString name = true) (finds : p.findMF name = none)
    (pairs : p.currentLabelPairs = []) {rest : GoString}
    (isInput : p.input = writeLines (headerLines name family) ++ rest) :
    ∃ q, Machine.Reaches next (.startOfLine, p) (.startOfLine, q) ∧ q.input = rest ∧
      q.currentLabelPairs = [] ∧ q.currentMF = some name ∧
      q.store = p.store.setFamily name (described family) := by
  have missing : p.store.families name = none := p.lookup_of_findMF_eq_none finds
  have isNew : p.store.family name = {} := by
    rw [Store.family, missing]
    rfl
  cases isHelp : family.help with
  | none =>
      have isInput : p.input = writeLine (.type name family.getType.word) ++ rest := by
        rw [isInput, headerLines, isHelp]
        simp [writeLines]
      rcases reaches_type name_ne_nil valid (Or.inl finds) (by rw [isNew]) pairs isInput with
        ⟨q, reaches, isRest, pairs, isCurrentMF, isStore⟩
      refine ⟨q, reaches, isRest, pairs, isCurrentMF, ?_⟩
      rw [isStore, Store.readType, isNew, described, isHelp]
      rfl
  | some help =>
      have isInput : p.input = writeLine (.help name help) ++
          (writeLine (.type name family.getType.word) ++ rest) := by
        rw [isInput, headerLines, isHelp]
        simp [writeLines]
      rcases reaches_help name_ne_nil valid (Or.inl finds) (by rw [isNew]) pairs isInput with
        ⟨q, reaches, isRest, pairs, _, isHelped⟩
      have held : q.store.family name = { help := rereadHelp (some help) } := by
        rw [isHelped, Store.readHelp, isNew, Store.family, Store.families_setFamily, if_pos rfl]
        rfl
      have isHeld : q.store.families name ≠ none := by
        rw [isHelped, Store.readHelp, Store.families_setFamily, if_pos rfl]
        exact Option.some_ne_none _
      rcases reaches_type name_ne_nil valid (Or.inr (findMF_of_held isHeld)) (by rw [held]) pairs
        isRest with ⟨last, more, isRest, pairs, isCurrentMF, isStore⟩
      refine ⟨last, reaches.trans more, isRest, pairs, isCurrentMF, ?_⟩
      rw [isStore, Store.readType, held, isHelped, Store.readHelp, setFamily_setFamily, described,
        isHelp]

end TextParser

/-! ## One family after the other -/

/-- A family as it is read, before its histograms are normalized. -/
def readFamily (name : GoString) (family : MetricFamily) : DtoFamily DtoMetric where
  help := rereadHelp family.help
  type := some (rereadType family.getType)
  metric := family.metric.map (readOf (rereadType family.getType) name)

/-- Exactly these families have been read. -/
structure Store.HasRead (store : Store) (done : List (Sigma fun _ : GoString => MetricFamily)) :
    Prop where
  tidy : store.Tidy
  contents : ∀ name, store.contents name = (done.dlookup name).map (readFamily name)
  summaries : ∀ sign, store.summaries sign ≠ none → sign ∈ signsOf (· == .summary) done
  histograms : ∀ sign, store.histograms sign ≠ none → sign ∈ signsOf ofHistogram done

section

variable {store : Store} {done : List (Sigma fun _ : GoString => MetricFamily)}

theorem Store.HasRead.missing (hasRead : store.HasRead done) {name : GoString}
    (notRead : name ∉ done.keys) : store.families name = none := by
  have nothing := hasRead.contents name
  rw [List.dlookup_eq_none.mpr notRead, Option.map_none, Store.contents,
    Option.map_eq_none_iff] at nothing
  exact nothing

theorem Store.HasRead.typed (hasRead : store.HasRead done) {name : GoString}
    {family : DtoFamily ℕ} (held : store.families name = some family) :
    ∃ read, ⟨name, read⟩ ∈ done ∧ family.type = some (rereadType read.getType) := by
  have contents := hasRead.contents name
  rw [Store.contents, held, Option.map_some, eq_comm, Option.map_eq_some_iff] at contents
  rcases contents with ⟨read, lookup, same⟩
  exact ⟨read, List.of_mem_dlookup lookup, congrArg DtoFamily.type same.symm⟩

/-- The family of the next description is a new one. -/
theorem findMF_eq_none {p : TextParser} {order rest : List (Sigma fun _ : GoString => MetricFamily)}
    {name : GoString} {family : MetricFamily} (all : AllWritable order)
    (isOrder : order = done ++ ⟨name, family⟩ :: rest) (hasRead : p.store.HasRead done) :
    p.findMF name = none := by
  have distinct := all.distinct
  rw [isOrder, List.nodupKeys_middle] at distinct
  have notRead : name ∉ done.keys := by
    intro isRead
    refine (List.nodupKeys_cons.mp distinct).1 ?_
    rw [List.keys, List.map_append]
    exact List.mem_append_left _ isRead
  have inOrder : name ∈ order.keys := by
    rw [isOrder, List.keys, List.map_append]
    exact List.mem_append_right _ List.mem_cons_self
  have missing := hasRead.missing notRead
  -- what has the name of a line of a family that has been read is no name of a family
  have notLine {other suffix : GoString} {found : DtoFamily ℕ}
      (held : p.store.families other = some found)
      (isSuffix : suffix ∈ suffixes (found.type.getD .counter)) : other ++ suffix ≠ name := by
    rintro rfl
    rcases hasRead.typed held with ⟨read, readMem, sameType⟩
    rw [sameType, Option.getD_some, (rereadType_eq _).2.2.1] at isSuffix
    refine all.noSuffix ⟨other, read⟩ ?_ suffix isSuffix inOrder
    rw [isOrder]
    exact List.mem_append_left _ readMem
  have notHeld : ¬(p.metricFamiliesByName.lookup name).isSome = true := by
    rw [show p.metricFamiliesByName.lookup name = none from missing]
    exact Bool.false_ne_true
  unfold TextParser.findMF
  dsimp only
  rw [if_neg notHeld, if_neg, if_neg]
  · intro isHistogram
    rw [Option.any_eq_true] at isHistogram
    rcases isHistogram with ⟨metricType, isType, isHistogram⟩
    rcases Option.map_eq_some_iff.mp isType with ⟨found, held, rfl⟩
    rcases histogramMetricName_cases name with same | ⟨suffix, isSuffix, isLine⟩
    · cases missing.symm.trans ((congrArg p.store.families same).symm.trans held)
    · exact notLine held (suffixes_of_ofHistogram isHistogram ▸ isSuffix) isLine
  · intro isSummary
    rcases Option.map_eq_some_iff.mp isSummary with ⟨found, held, isType⟩
    rcases summaryMetricName_cases name with same | ⟨suffix, isSuffix, isLine⟩
    · cases missing.symm.trans ((congrArg p.store.families same).symm.trans held)
    · exact notLine held (isType.symm ▸ isSuffix) isLine

end

section

variable {done rest : List (Sigma fun _ : GoString => MetricFamily)} {name : GoString}
  {family : MetricFamily}

theorem missing_metrics {store : Store} (all : AllWritable (done ++ ⟨name, family⟩ :: rest))
    (hasRead : store.HasRead done) :
    (ofLines family.getType = true → (signs name family.metric).Nodup) ∧
      ∀ sign ∈ signs name family.metric, store.found family.getType sign = none := by
  by_cases isSummary : family.getType = .summary
  · rcases missing_signs all.summaries (beq_iff_eq.mpr isSummary) hasRead.summaries with
      ⟨distinct, missing⟩
    refine ⟨fun _ => distinct, fun sign signMem => ?_⟩
    rw [Store.found, if_pos isSummary]
    exact missing sign signMem
  · by_cases isHistogram : ofHistogram family.getType = true
    · rcases missing_signs all.histograms isHistogram hasRead.histograms with ⟨distinct, missing⟩
      refine ⟨fun _ => distinct, fun sign signMem => ?_⟩
      rw [histograms_of_found isHistogram]
      exact missing sign signMem
    · have single : ofLines family.getType = false := by
        simp [ofLines, isSummary, isHistogram]
      exact ⟨fun isOfLines => absurd (single.symm.trans isOfLines) (by decide),
        fun sign _ => found_eq_none single store sign⟩

/-- What the store is after the lines of a family. -/
theorem hasRead_family {store : Store} (all : AllWritable (done ++ ⟨name, family⟩ :: rest))
    (hasRead : store.HasRead done) :
    Store.HasRead ((family.metric.flatMap (metricSamples name)).foldl
      (Store.readSample · (rereadType family.getType))
      (store.setFamily name (described family))) (done ++ [⟨name, family⟩]) := by
  have writable := all.writable ⟨name, family⟩ (by simp)
  rcases rereadType_eq family.getType with ⟨sameKind, sameHistogram, _, sameSummary, _⟩
  rcases missing_metrics all hasRead with ⟨distinct, missing⟩
  have notRead : name ∉ done.keys := by
    intro isRead
    refine (List.nodupKeys_cons.mp (List.nodupKeys_middle.mp all.distinct)).1 ?_
    rw [List.keys, List.map_append]
    exact List.mem_append_left _ isRead
  rcases @read_metrics _ (rereadType family.getType) name _
    (fun metric metricMem => (writable.parsed.kinds metric metricMem).trans sameKind.symm)
    (fun isOfLines => distinct (by
      cases isType : family.getType <;> rw [isType] at isOfLines <;> first | rfl | cases isOfLines))
    _ _ (tidy_described hasRead.tidy name family)
    (by rw [Store.families_setFamily, if_pos rfl])
    (fun sign signMem => (found_rereadType store _ sign).trans (missing sign signMem)) with
    ⟨read, isRead, tidy, contents, summaries, histograms⟩
  rw [← isRead]
  refine ⟨tidy, fun other => ?_, fun sign isHeld => ?_, fun sign isHeld => ?_⟩
  · rw [contents other, contents_setFamily, List.dlookup_append]
    by_cases same : other = name
    · subst same
      rw [if_pos rfl, List.dlookup_eq_none.mpr notRead, List.dlookup_cons_eq]
      rfl
    · rw [if_neg same, if_neg same, List.dlookup_cons_ne _ _ same, hasRead.contents other]
      simp
  · rw [signsOf_append, List.mem_append]
    rcases summaries sign isHeld with isHeld | ⟨isSummary, signMem⟩
    · exact Or.inl (hasRead.summaries sign isHeld)
    · rw [signsOf_cons, if_pos (beq_iff_eq.mpr (sameSummary.mp isSummary))]
      exact Or.inr (List.mem_append_left _ signMem)
  · rw [signsOf_append, List.mem_append]
    rcases histograms sign isHeld with isHeld | ⟨isHistogram, signMem⟩
    · exact Or.inl (hasRead.histograms sign isHeld)
    · rw [signsOf_cons, if_pos (sameHistogram.symm.trans isHistogram)]
      exact Or.inr (List.mem_append_left _ signMem)

/-- The lines of a family and the empty line behind them. -/
theorem reaches_family {p : TextParser}
    (all : AllWritable (done ++ ⟨name, family⟩ :: rest)) (hasRead : p.store.HasRead done)
    (pairs : p.currentLabelPairs = []) {input : GoString}
    (isInput : p.input = writeLines ((metricFamilyToText family).1 ++ [.blank]) ++ input) :
    ∃ q, Machine.Reaches TextParser.next (.startOfLine, p) (.startOfLine, q) ∧
      q.input = input ∧ q.currentLabelPairs = [] ∧
      q.store.HasRead (done ++ [⟨name, family⟩]) := by
  have entryMem : ⟨name, family⟩ ∈ done ++ ⟨name, family⟩ :: rest := by simp
  have writable := all.writable ⟨name, family⟩ entryMem
  have finds := findMF_eq_none all rfl hasRead
  have isInput : p.input = writeLines (headerLines name family) ++
      (writeLines ((family.metric.flatMap (metricSamples name)).map Line.sample) ++
        (writeLine .blank ++ input)) := by
    have samples : family.metric.flatMap (metricLines name) =
        (family.metric.flatMap (metricSamples name)).map Line.sample := by
      rw [List.map_flatMap]
      exact List.flatMap_congr fun metric _ => metricLines_eq name metric
    rw [isInput, writable.parsed.metricFamilyToText, samples]
    simp [writeLines]
  rcases TextParser.reaches_header writable.parsed.name_ne_nil writable.valid finds pairs isInput
    with ⟨headed, toHeader, isRest, pairs, isCurrentMF, isHeaded⟩
  have current : headed.store.Current name (rereadType family.getType) := by
    refine ⟨writable.parsed.name_ne_nil, writable.valid, ⟨described family, ?_, rfl⟩, ?_⟩
    · rw [isHeaded, Store.families_setFamily, if_pos rfl]
    · intro suffix suffixMem
      rw [(rereadType_eq _).2.2.1] at suffixMem
      have notName := all.noSuffix _ entryMem suffix suffixMem
      have other : name ++ suffix ≠ name := by
        intro same
        rw [same] at notName
        exact notName (List.mem_map_of_mem entryMem)
      rw [isHeaded, Store.families_setFamily, if_neg other]
      refine hasRead.missing fun isRead => notName ?_
      rw [List.keys, List.map_append]
      exact List.mem_append_left _ isRead
  have fits : ∀ sample ∈ family.metric.flatMap (metricSamples name),
      sample.name = name ∧ sample.Fits (rereadType family.getType) := by
    intro sample sampleMem
    rcases List.mem_flatMap.mp sampleMem with ⟨metric, metricMem, sampleMem⟩
    exact fits_of_writable writable metricMem sampleMem
  rcases TextParser.reaches_samples fits current pairs isCurrentMF isRest with
    ⟨sampled, toSamples, isRest, pairs, _, isSampled⟩
  rcases TextParser.reaches_blank isRest with ⟨q, toBlank, isRest, samePairs, isStore⟩
  refine ⟨q, (toHeader.trans toSamples).trans toBlank, isRest, samePairs.trans pairs, ?_⟩
  rw [isStore, isSampled, isHeaded]
  exact hasRead_family all hasRead

end

end Expfmt

end Promfetcher
